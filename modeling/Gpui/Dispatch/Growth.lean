import Gpui.Dispatch.Tree

/-!
# Growth above a point

While the elements begun since some point are built and finished, the tree only
grows above that point: the stacks of the point stay below those of the open
nodes, and its nodes stay as they are.
-/

namespace Gpui

namespace DispatchTree

variable {L : Type}

/-! ## Single operations -/

theorem modifyActive_eq_some_iff {self next : DispatchTree L}
    {change : DispatchNode L → DispatchNode L} :
    self.modifyActive change = some next ↔
      ∃ nodeId, self.nodeStack.getLast? = some nodeId ∧ nodeId < self.nodes.length ∧
        next = { self with nodes := self.nodes.modify nodeId change } := by
  simp only [modifyActive, activeNodeId, Option.bind_eq_bind, Option.bind_eq_some_iff,
    Option.ite_none_right_eq_some, Option.some.injEq]
  constructor
  · rintro ⟨nodeId, active, bound, rfl⟩
    exact ⟨nodeId, active, bound, rfl⟩
  · rintro ⟨nodeId, active, bound, rfl⟩
    exact ⟨nodeId, active, bound, rfl⟩

theorem popNode_eq_some_iff {self next : DispatchTree L} :
    self.popNode = some next ↔
      ∃ nodeId node, self.nodeStack.getLast? = some nodeId ∧ self.nodes[nodeId]? = some node ∧
        next = { self with
          contextStack :=
            if node.context.isSome then self.contextStack.dropLast else self.contextStack
          viewStack := if node.viewId.isSome then self.viewStack.dropLast else self.viewStack
          nodeStack := self.nodeStack.dropLast } := by
  simp only [popNode, activeNodeId, Option.bind_eq_bind, Option.bind_eq_some_iff, Option.pure_def,
    Option.some.injEq]
  constructor
  · rintro ⟨nodeId, active, node, here, rfl⟩
    exact ⟨nodeId, node, active, here, rfl⟩
  · rintro ⟨nodeId, node, active, here, rfl⟩
    exact ⟨nodeId, active, node, here, rfl⟩

theorem setFocusId_eq_some_iff {self next : DispatchTree L} {focusId : FocusId} :
    self.setFocusId focusId = some next ↔
      ∃ nodeId, self.nodeStack.getLast? = some nodeId ∧ nodeId < self.nodes.length ∧
        next = { self with
          nodes := self.nodes.modify nodeId fun node => { node with focusId := some focusId }
          focusableNodeIds := Function.update self.focusableNodeIds focusId (some nodeId) } := by
  simp only [setFocusId, activeNodeId, Option.bind_eq_bind, Option.bind_eq_some_iff,
    modifyActive_eq_some_iff, Option.pure_def, Option.some.injEq]
  constructor
  · rintro ⟨nodeId, active, _, ⟨_, sameActive, bound, rfl⟩, rfl⟩
    rcases active.symm.trans sameActive with ⟨⟩
    exact ⟨nodeId, active, bound, rfl⟩
  · rintro ⟨nodeId, active, bound, rfl⟩
    exact ⟨nodeId, active, _, ⟨nodeId, active, bound, rfl⟩, rfl⟩

theorem setViewId_eq_some_iff {self next : DispatchTree L} {viewId : EntityId} :
    self.setViewId viewId = some next ↔
      self.viewStack.getLast? = some viewId ∧ next = self ∨
      self.viewStack.getLast? ≠ some viewId ∧
        ∃ nodeId, self.nodeStack.getLast? = some nodeId ∧ nodeId < self.nodes.length ∧
          next = { self with
            nodes := self.nodes.modify nodeId fun node => { node with viewId := some viewId }
            viewNodeIds := Function.update self.viewNodeIds viewId (some nodeId)
            viewStack := self.viewStack ++ [viewId] } := by
  by_cases top : self.viewStack.getLast? = some viewId
  · simp [setViewId, top, eq_comm]
  · simp only [setViewId, top, ne_eq, not_false_eq_true, if_true, activeNodeId,
      Option.bind_eq_bind, Option.bind_eq_some_iff, modifyActive_eq_some_iff, Option.pure_def,
      Option.some.injEq, false_and, false_or, true_and]
    constructor
    · rintro ⟨nodeId, active, _, ⟨_, sameActive, bound, rfl⟩, rfl⟩
      rcases active.symm.trans sameActive with ⟨⟩
      exact ⟨nodeId, active, bound, rfl⟩
    · rintro ⟨nodeId, active, bound, rfl⟩
      exact ⟨nodeId, active, _, ⟨nodeId, active, bound, rfl⟩, rfl⟩

private theorem modify_concat {α : Type} (items : List α) (item : α) (change : α → α) :
    (items ++ [item]).modify items.length change = items ++ [change item] := by
  induction items with
  | nil => rfl
  | cons first items ih => simp [ih]

/-- What becomes of a moved node: its view is only set where it differs from the
view the stack ends in. -/
def moved (self : DispatchTree L) (source : DispatchNode L) : DispatchNode L :=
  { source with
    viewId := if self.viewStack.getLast? = source.viewId then none else source.viewId
    parent := self.nodeStack.getLast? }

/-- The tree with one more node, which is open. -/
def grow (self : DispatchTree L) (node : DispatchNode L) : DispatchTree L where
  nodeStack := self.nodeStack ++ [self.nodes.length]
  contextStack := self.contextStack ++ node.context.toList
  viewStack := self.viewStack ++ node.viewId.toList
  nodes := self.nodes ++ [node]
  focusableNodeIds := fun id =>
    if node.focusId = some id then some self.nodes.length else self.focusableNodeIds id
  viewNodeIds := fun id =>
    if node.viewId = some id then some self.nodes.length else self.viewNodeIds id

theorem pushNode_eq (self : DispatchTree L) :
    self.pushNode = self.grow (.new self.nodeStack.getLast?) := by
  simp [pushNode, grow, DispatchNode.new]

theorem modifyActive_grow (self : DispatchTree L) (node : DispatchNode L)
    (change : DispatchNode L → DispatchNode L) :
    (self.grow node).modifyActive change =
      some { self.grow node with nodes := self.nodes ++ [change node] } := by
  simp [modifyActive, activeNodeId, grow, modify_concat]

theorem setKeyContext?_grow (self : DispatchTree L) {node : DispatchNode L}
    (unset : node.context = none) (context : Option KeyContext) :
    (self.grow node).setKeyContext? context = some (self.grow { node with context }) := by
  cases context with
  | none =>
      rcases node with ⟨_, _, _, _, _, _, _⟩
      rcases unset with ⟨⟩
      rfl
  | some context =>
      simp only [setKeyContext?, setKeyContext, modifyActive_grow, Option.bind_eq_bind,
        Option.bind_some, Option.pure_def]
      simp [grow, unset]

theorem setFocusId?_grow (self : DispatchTree L) {node : DispatchNode L}
    (unset : node.focusId = none) (focusId : Option FocusId) :
    (self.grow node).setFocusId? focusId = some (self.grow { node with focusId }) := by
  cases focusId with
  | none =>
      rcases node with ⟨_, _, _, _, _, _, _⟩
      rcases unset with ⟨⟩
      rfl
  | some focusId =>
      have table : Function.update (self.grow node).focusableNodeIds focusId
          (some self.nodes.length) = (self.grow { node with focusId }).focusableNodeIds := by
        funext id
        by_cases same : id = focusId
        · simp [grow, same]
        · simp [grow, same, unset, Ne.symm same]
      have active : (self.grow node).nodeStack.getLast? = some self.nodes.length := by
        simp [grow]
      simp only [setFocusId?, setFocusId, activeNodeId, active, modifyActive_grow,
        Option.bind_eq_bind, Option.bind_some, table]
      rfl

theorem setViewId?_grow (self : DispatchTree L) {node : DispatchNode L}
    (unset : node.viewId = none) (viewId : Option EntityId) :
    (self.grow node).setViewId? viewId =
      some (self.grow { node with
        viewId := if self.viewStack.getLast? = viewId then none else viewId }) := by
  have same : { node with viewId := none } = node := by
    rcases node with ⟨_, _, _, _, _, _, _⟩
    rcases unset with ⟨⟩
    rfl
  cases viewId with
  | none => simp [setViewId?, same]
  | some viewId =>
      have viewStack : (self.grow node).viewStack = self.viewStack := by simp [grow, unset]
      by_cases top : self.viewStack.getLast? = some viewId
      · simp [setViewId?, setViewId, viewStack, top, same]
      · have table : Function.update (self.grow node).viewNodeIds viewId
            (some self.nodes.length) = (self.grow { node with viewId }).viewNodeIds := by
          funext id
          by_cases here : id = viewId
          · simp [grow, here]
          · simp [grow, here, unset, Ne.symm here]
        have active : (self.grow node).nodeStack.getLast? = some self.nodes.length := by
          simp [grow]
        simp only [setViewId?, setViewId, viewStack, top, ne_eq, not_false_eq_true, if_true,
          if_false, activeNodeId, active, modifyActive_grow, Option.bind_eq_bind,
          Option.bind_some, table]
        rfl

/-- Moving a node opens what becomes of it. -/
theorem moveNode_eq (self : DispatchTree L) (source : DispatchNode L) :
    self.moveNode source = some (self.grow (self.moved source)) := by
  simp only [moveNode, pushNode_eq, setKeyContext?_grow, setFocusId?_grow, setViewId?_grow,
    modifyActive_grow, DispatchNode.new, Option.bind_eq_bind, Option.bind_some]
  rfl

/-! ## Paths -/

/-- The nodes from below a base down to a node, each the parent of the next. -/
inductive PathFrom (self : DispatchTree L) (base : List DispatchNodeId) :
    List DispatchNodeId → Prop where
  | nil : PathFrom self base []
  | snoc {path : List DispatchNodeId} {nodeId : DispatchNodeId} {node : DispatchNode L}
      (front : PathFrom self base path) (here : self.nodes[nodeId]? = some node)
      (parent : node.parent = (base ++ path).getLast?) : PathFrom self base (path ++ [nodeId])

theorem pathFrom_snoc_iff {self : DispatchTree L} {base path : List DispatchNodeId}
    {nodeId : DispatchNodeId} :
    self.PathFrom base (path ++ [nodeId]) ↔
      self.PathFrom base path ∧
        ∃ node : DispatchNode L, self.nodes[nodeId]? = some node ∧
          node.parent = (base ++ path).getLast? := by
  constructor
  · intro isPath
    generalize whole_eq : path ++ [nodeId] = whole at isPath
    cases isPath with
    | nil => simp at whole_eq
    | snoc front here parent =>
        rcases List.append_inj' whole_eq rfl with ⟨rfl, same⟩
        rcases List.singleton_inj.mp same with rfl
        exact ⟨front, _, here, parent⟩
  · rintro ⟨front, node, here, parent⟩
    exact front.snoc here parent

theorem PathFrom.congr {self next : DispatchTree L} {base : List DispatchNodeId}
    (same : ∀ (nodeId : DispatchNodeId) (node : DispatchNode L), self.nodes[nodeId]? = some node →
      ∃ other : DispatchNode L, next.nodes[nodeId]? = some other ∧ other.parent = node.parent)
    {path : List DispatchNodeId} (isPath : self.PathFrom base path) :
    next.PathFrom base path := by
  induction isPath with
  | nil => exact .nil
  | snoc _ here parent ih =>
      rcases same _ _ here with ⟨other, there, sameParent⟩
      exact ih.snoc there (sameParent.trans parent)

theorem PathFrom.of_nodes {self next : DispatchTree L} (same : next.nodes = self.nodes)
    {base path : List DispatchNodeId} (isPath : self.PathFrom base path) :
    next.PathFrom base path :=
  isPath.congr fun _ node here => ⟨node, by rw [same, here], rfl⟩

theorem PathFrom.bound {self : DispatchTree L} {base path : List DispatchNodeId}
    (isPath : self.PathFrom base path) : ∀ nodeId ∈ path, nodeId < self.nodes.length := by
  induction isPath with
  | nil => simp
  | snoc _ here _ ih =>
      intro nodeId member
      rcases List.mem_append.mp member with inFront | isTop
      · exact ih nodeId inFront
      · rw [List.mem_singleton.mp isTop]
        exact (List.getElem?_eq_some_iff.mp here).1

/-! ## What is set on a path -/

theorem contextsOf_append (self : DispatchTree L) (front back : List DispatchNodeId) :
    self.contextsOf (front ++ back) = self.contextsOf front ++ self.contextsOf back :=
  List.filterMap_append

theorem viewsOf_append (self : DispatchTree L) (front back : List DispatchNodeId) :
    self.viewsOf (front ++ back) = self.viewsOf front ++ self.viewsOf back :=
  List.filterMap_append

theorem contextsOf_singleton {self : DispatchTree L} {nodeId : DispatchNodeId}
    {node : DispatchNode L} (here : self.nodes[nodeId]? = some node) :
    self.contextsOf [nodeId] = node.context.toList := by
  cases context : node.context <;> simp [contextsOf, here, context]

theorem viewsOf_singleton {self : DispatchTree L} {nodeId : DispatchNodeId}
    {node : DispatchNode L} (here : self.nodes[nodeId]? = some node) :
    self.viewsOf [nodeId] = node.viewId.toList := by
  cases viewId : node.viewId <;> simp [viewsOf, here, viewId]

theorem contextsOf_congr {self next : DispatchTree L} {path : List DispatchNodeId}
    (same : ∀ nodeId ∈ path, next.nodes[nodeId]? = self.nodes[nodeId]?) :
    next.contextsOf path = self.contextsOf path :=
  List.filterMap_congr fun nodeId member => by rw [same nodeId member]

theorem viewsOf_congr {self next : DispatchTree L} {path : List DispatchNodeId}
    (same : ∀ nodeId ∈ path, next.nodes[nodeId]? = self.nodes[nodeId]?) :
    next.viewsOf path = self.viewsOf path :=
  List.filterMap_congr fun nodeId member => by rw [same nodeId member]

/-! ## Open nodes -/

/-- The stacks are those of a base, and above them the open nodes' own. -/
structure Above (base tree : DispatchTree L) (opened : List DispatchNodeId) : Prop where
  nodeStack : tree.nodeStack = base.nodeStack ++ opened
  path : tree.PathFrom base.nodeStack opened
  contexts : tree.contextStack = base.contextStack ++ tree.contextsOf opened
  views : tree.viewStack = base.viewStack ++ tree.viewsOf opened

theorem Above.refl (base : DispatchTree L) : Above base base [] where
  nodeStack := (List.append_nil _).symm
  path := .nil
  contexts := (List.append_nil _).symm
  views := (List.append_nil _).symm

theorem getElem?_grow_old {self : DispatchTree L} {node : DispatchNode L} {nodeId : DispatchNodeId}
    (bound : nodeId < self.nodes.length) :
    (self.grow node).nodes[nodeId]? = self.nodes[nodeId]? :=
  List.getElem?_append_left bound

theorem getElem?_grow_new {self : DispatchTree L} {node : DispatchNode L} :
    (self.grow node).nodes[self.nodes.length]? = some node := by
  simp [grow]

theorem Above.grow {base tree : DispatchTree L} {opened : List DispatchNodeId}
    (above : Above base tree opened) {node : DispatchNode L}
    (parent : node.parent = tree.nodeStack.getLast?) :
    Above base (tree.grow node) (opened ++ [tree.nodes.length]) := by
  have old : ∀ nodeId ∈ opened, (tree.grow node).nodes[nodeId]? = tree.nodes[nodeId]? :=
    fun nodeId member => getElem?_grow_old (above.path.bound nodeId member)
  constructor
  case nodeStack =>
    change tree.nodeStack ++ [tree.nodes.length] = _
    rw [above.nodeStack, List.append_assoc]
  case path =>
    refine PathFrom.snoc (above.path.congr ?_) getElem?_grow_new (above.nodeStack ▸ parent)
    intro nodeId other here
    have bound := (List.getElem?_eq_some_iff.mp here).1
    exact ⟨other, (getElem?_grow_old bound).trans here, rfl⟩
  case contexts =>
    change tree.contextStack ++ node.context.toList = _
    rw [contextsOf_append, contextsOf_congr old, contextsOf_singleton getElem?_grow_new,
      above.contexts, List.append_assoc]
  case views =>
    change tree.viewStack ++ node.viewId.toList = _
    rw [viewsOf_append, viewsOf_congr old, viewsOf_singleton getElem?_grow_new,
      above.views, List.append_assoc]

/-- Only the stacks differ. -/
structure SameNodes (tree next : DispatchTree L) : Prop where
  nodes : next.nodes = tree.nodes
  focusableNodeIds : next.focusableNodeIds = tree.focusableNodeIds
  viewNodeIds : next.viewNodeIds = tree.viewNodeIds

theorem SameNodes.refl (self : DispatchTree L) : SameNodes self self :=
  ⟨rfl, rfl, rfl⟩

theorem SameNodes.trans {first second third : DispatchTree L} (front : SameNodes first second)
    (back : SameNodes second third) : SameNodes first third :=
  ⟨back.nodes.trans front.nodes, back.focusableNodeIds.trans front.focusableNodeIds,
    back.viewNodeIds.trans front.viewNodeIds⟩

theorem SameNodes.of_popNode {self next : DispatchTree L} (pops : self.popNode = some next) :
    SameNodes self next := by
  rcases popNode_eq_some_iff.1 pops with ⟨_, _, _, _, rfl⟩
  exact ⟨rfl, rfl, rfl⟩

/-- Popping an open node closes it. -/
theorem Above.popNode {base tree : DispatchTree L} {opened : List DispatchNodeId}
    {top : DispatchNodeId} (above : Above base tree (opened ++ [top])) :
    ∃ next, tree.popNode = some next ∧ Above base next opened := by
  rcases pathFrom_snoc_iff.1 above.path with ⟨front, node, here, -⟩
  have stack : tree.nodeStack = base.nodeStack ++ opened ++ [top] := by
    rw [above.nodeStack, List.append_assoc]
  have active : tree.nodeStack.getLast? = some top := by
    rw [stack, List.getLast?_concat]
  have contexts := above.contexts
  have views := above.views
  rw [contextsOf_append, contextsOf_singleton here, ← List.append_assoc] at contexts
  rw [viewsOf_append, viewsOf_singleton here, ← List.append_assoc] at views
  refine ⟨_, popNode_eq_some_iff.2 ⟨top, node, active, here, rfl⟩, ?_⟩
  constructor
  case nodeStack =>
    change tree.nodeStack.dropLast = _
    rw [stack, List.dropLast_concat]
  case path =>
    refine front.of_nodes ?_
    rfl
  case contexts =>
    change (if node.context.isSome then tree.contextStack.dropLast else tree.contextStack) =
      base.contextStack ++ tree.contextsOf opened
    rw [contexts]
    cases node.context <;> simp
  case views =>
    change (if node.viewId.isSome then tree.viewStack.dropLast else tree.viewStack) =
      base.viewStack ++ tree.viewsOf opened
    rw [views]
    cases node.viewId <;> simp

/-! ## Reuse as pushes and pops -/

theorem leaveUntil_nil {parent : Option DispatchNodeId} {self : DispatchTree L} :
    leaveUntil parent [] self = some ([], self) := by
  rw [leaveUntil]

/-- Without a parent to stop at, every node is left. -/
theorem leaveUntil_none {stack rest : List DispatchNodeId} {self reached : DispatchTree L}
    (leaves : leaveUntil none stack self = some (rest, reached)) : rest = [] := by
  induction stack generalizing self with
  | nil =>
      rcases Option.some.inj leaves with ⟨⟩
      rfl
  | cons ancestor stack ih =>
      rw [leaveUntil, if_neg (by simp)] at leaves
      rcases Option.bind_eq_some_iff.mp leaves with ⟨popped, -, leaves⟩
      exact ih leaves

section Induct

variable {motive : Nat → DispatchTree L → Prop}
  (pop : ∀ {height : Nat} {tree next : DispatchTree L}, motive (height + 1) tree →
    tree.popNode = some next → motive height next)
  (push : ∀ {height : Nat} {tree : DispatchTree L} (source : DispatchNode L),
    motive height tree → motive (height + 1) (tree.grow (tree.moved source)))

include pop in
private theorem leaveUntil_induct {parent : Option DispatchNodeId}
    {stack rest : List DispatchNodeId} {self reached : DispatchTree L}
    (holds : motive stack.length self)
    (leaves : leaveUntil parent stack self = some (rest, reached)) :
    motive rest.length reached := by
  induction stack generalizing self with
  | nil =>
      rcases Option.some.inj leaves with ⟨⟩
      exact holds
  | cons ancestor stack ih =>
      rw [leaveUntil] at leaves
      split at leaves
      case isTrue _ =>
        rcases Option.some.inj leaves with ⟨⟩
        exact holds
      case isFalse _ =>
        rcases Option.bind_eq_some_iff.mp leaves with ⟨popped, pops, leaves⟩
        exact ih (pop holds pops) leaves

include pop push in
private theorem reuseNodes_induct {sources : List (DispatchNode L)} {sourceId : DispatchNodeId}
    {stack rest : List DispatchNodeId} {self reached : DispatchTree L}
    (holds : motive stack.length self)
    (reuses : reuseNodes sourceId sources (stack, self) = some (rest, reached)) :
    motive rest.length reached := by
  induction sources generalizing sourceId stack self with
  | nil =>
      rcases Option.some.inj reuses with ⟨⟩
      exact holds
  | cons source sources ih =>
      simp only [reuseNodes, Option.bind_eq_bind, Option.bind_eq_some_iff, moveNode_eq,
        Option.bind_some] at reuses
      rcases reuses with ⟨⟨left, popped⟩, leaves, reuses⟩
      have pushed : motive (sourceId :: left).length (popped.grow (popped.moved source)) :=
        push source (leaveUntil_induct pop holds leaves)
      exact ih pushed reuses

include pop push in
/-- Reuse pushes moved nodes and pops as many: what these keep, counting the nodes
that are open, reuse keeps. -/
theorem reuseSubtree_induct {self source reached rest : DispatchTree L} {start stop : Nat}
    {focus : Option FocusId} {reused : ReusedSubtree} (holds : motive 0 self)
    (reuses : self.reuseSubtree source start stop focus = some (reused, reached, rest)) :
    motive 0 reached := by
  simp only [reuseSubtree, Option.bind_eq_bind, Option.bind_eq_some_iff, Option.pure_def,
    Option.some.injEq, Prod.mk.injEq] at reuses
  rcases reuses with ⟨⟨stack, walked⟩, walks, ⟨left, closed⟩, leaves, -, rfl, -⟩
  have begins : motive ([] : List DispatchNodeId).length self := holds
  have ends := leaveUntil_induct pop (reuseNodes_induct pop push begins walks) leaves
  rw [leaveUntil_none leaves] at ends
  exact ends

end Induct

end DispatchTree

end Gpui
