import Gpui.Dispatch.Recording

/-!
# Reusing a subtree

A recorded range of one tree is copied under the active node of another.  The loop
replays the walk that pushed the range, so every copy gets the copy of its node's
parent.
-/

namespace Gpui

open Gpui.Library

variable {L : Type}

namespace DispatchTree

/-! ## Tables filled along a list -/

/-- A table in which every key of a list leads to the key's last place there, and
every other key to where it led before. -/
structure LeadsToLast (keys : List (Option Nat)) (offset : Nat)
    (before table : Nat → Option Nat) : Prop where
  last : ∀ index key, keys[index]? = some (some key) →
    (∀ later, index < later → keys[later]? ≠ some (some key)) → table key = some (offset + index)
  other : ∀ key, some key ∉ keys → table key = before key

theorem LeadsToLast.nil (offset : Nat) (before : Nat → Option Nat) :
    LeadsToLast [] offset before before where
  last := by simp
  other _ _ := rfl

theorem LeadsToLast.snoc {keys : List (Option Nat)} {offset : Nat} {before table : Nat → Option Nat}
    (leads : LeadsToLast keys offset before table) (new : Option Nat) :
    LeadsToLast (keys ++ [new]) offset before fun key =>
      if new = some key then some (offset + keys.length) else table key where
  last index key here isLast := by
    rcases Nat.lt_trichotomy index keys.length with less | rfl | more
    · have unlike : new ≠ some key := by
        have atEnd := isLast keys.length less
        rwa [List.getElem?_concat_length, ne_eq, Option.some.injEq] at atEnd
      rw [if_neg unlike]
      rw [List.getElem?_append_left less] at here
      refine leads.last index key here fun later after there => ?_
      have bound := (List.getElem?_eq_some_iff.mp there).1
      exact isLast later after ((List.getElem?_append_left bound).trans there)
    · rw [List.getElem?_concat_length, Option.some.injEq] at here
      rw [if_pos here]
    · have outside : (keys ++ [new])[index]? = none := by
        simp
        omega
      rw [outside] at here
      cases here
  other key absent := by
    rw [List.mem_append, List.mem_singleton, not_or] at absent
    rw [if_neg (Ne.symm absent.2)]
    exact leads.other key absent.1

/-! ## Copies -/

/-- The view in force at a node: its own, or that of the nearest of the nodes above it
from the id `start` on, or else the one outside of these. -/
inductive ViewInForce (tree : DispatchTree L) (start : Nat) (outer : Option EntityId) :
    Option DispatchNodeId → Option EntityId → Prop where
  | outside {nodeId : Option DispatchNodeId} (above : ∀ id ∈ nodeId, id < start) :
      ViewInForce tree start outer nodeId outer
  | own {nodeId : DispatchNodeId} {node : DispatchNode L} {viewId : EntityId}
      (inside : start ≤ nodeId) (here : tree.nodes[nodeId]? = some node)
      (sets : node.viewId = some viewId) :
      ViewInForce tree start outer (some nodeId) (some viewId)
  | inherited {nodeId : DispatchNodeId} {node : DispatchNode L} {viewId : Option EntityId}
      (inside : start ≤ nodeId) (here : tree.nodes[nodeId]? = some node)
      (unset : node.viewId = none) (above : ViewInForce tree start outer node.parent viewId) :
      ViewInForce tree start outer (some nodeId) viewId

theorem ViewInForce.congr {tree next : DispatchTree L} {start : Nat} {outer : Option EntityId}
    (same : ∀ nodeId, nodeId < tree.nodes.length → next.nodes[nodeId]? = tree.nodes[nodeId]?)
    {nodeId : Option DispatchNodeId} {viewId : Option EntityId}
    (inForce : ViewInForce tree start outer nodeId viewId) :
    ViewInForce next start outer nodeId viewId := by
  induction inForce with
  | outside above => exact .outside above
  | own inside here sets =>
      have bound := (List.getElem?_eq_some_iff.mp here).1
      exact .own inside ((same _ bound).trans here) sets
  | inherited inside here unset _ ih =>
      have bound := (List.getElem?_eq_some_iff.mp here).1
      exact .inherited inside ((same _ bound).trans here) unset ih

/-- Above a tree, the view stack ends in the view in force at the active node. -/
theorem Above.viewInForce {base tree : DispatchTree L} {opened : List DispatchNodeId}
    (above : Above base tree opened) (bounded : base.Bounded)
    (inside : ∀ nodeId ∈ opened, base.nodes.length ≤ nodeId) :
    ViewInForce tree base.nodes.length base.viewStack.getLast? tree.nodeStack.getLast?
      tree.viewStack.getLast? := by
  rw [above.nodeStack, above.views]
  have path := above.path
  clear above
  induction path with
  | nil =>
      simp only [List.append_nil, viewsOf, List.filterMap_nil]
      exact .outside fun nodeId active => bounded nodeId (List.mem_of_getLast? active)
  | @snoc front nodeId node _ here parent ih =>
      have member : nodeId ∈ front ++ [nodeId] := List.mem_append_right _ List.mem_cons_self
      rw [← List.append_assoc, List.getLast?_concat, viewsOf_append, viewsOf_singleton here,
        ← List.append_assoc]
      cases sets : node.viewId with
      | none =>
          rw [Option.toList_none, List.append_nil]
          refine .inherited (inside nodeId member) here sets ?_
          rw [parent]
          exact ih fun other below => inside other (List.mem_append_left _ below)
      | some viewId =>
          rw [Option.toList_some, List.getLast?_concat]
          exact .own (inside nodeId member) here sets

/-- The id of the copy of a node. -/
def copyId (self : DispatchTree L) (start : Nat) (nodeId : DispatchNodeId) : DispatchNodeId :=
  nodeId - start + self.nodes.length

/-- Parents outside of the range are replaced by the active node. -/
def copyParent (self : DispatchTree L) (start : Nat) :
    Option DispatchNodeId → Option DispatchNodeId
  | some parent => if start ≤ parent then some (self.copyId start parent) else self.activeNodeId
  | none => self.activeNodeId

/-- All but the parent and the view id are the node's own.  The view id is dropped
where the view is in force already. -/
def IsCopy (self : DispatchTree L) (start : Nat) (tree : DispatchTree L)
    (source copy : DispatchNode L) : Prop :=
  ∃ inForce, ViewInForce tree self.nodes.length self.viewStack.getLast? copy.parent inForce ∧
    copy = { source with
      parent := self.copyParent start source.parent
      viewId := if inForce = source.viewId then none else source.viewId }

/-- The tree has the nodes it had and a copy of each source node, and its tables lead
to the copies. -/
structure Copied (before : DispatchTree L) (start : Nat) (sources : List (DispatchNode L))
    (tree : DispatchTree L) : Prop where
  len : tree.nodes.length = before.nodes.length + sources.length
  old : ∀ nodeId, nodeId < before.nodes.length → tree.nodes[nodeId]? = before.nodes[nodeId]?
  copies : ∀ index source, sources[index]? = some source →
    ∃ copy, tree.nodes[before.nodes.length + index]? = some copy ∧
      IsCopy before start tree source copy
  focusTable : LeadsToLast (sources.map DispatchNode.focusId) before.nodes.length
    before.focusableNodeIds tree.focusableNodeIds
  viewTable : LeadsToLast ((tree.nodes.drop before.nodes.length).map DispatchNode.viewId)
    before.nodes.length before.viewNodeIds tree.viewNodeIds

theorem Copied.nil (self : DispatchTree L) (start : Nat) : Copied self start [] self where
  len := rfl
  old _ _ := rfl
  copies := by simp
  focusTable := .nil _ _
  viewTable := by
    rw [List.drop_length]
    exact .nil _ _

theorem Copied.of_sameNodes {self tree next : DispatchTree L} {start : Nat}
    {sources : List (DispatchNode L)} (copied : Copied self start sources tree)
    (same : SameNodes tree next) : Copied self start sources next where
  len := same.nodes ▸ copied.len
  old := same.nodes ▸ copied.old
  copies index source here := by
    rcases copied.copies index source here with ⟨copy, there, inForce, isInForce, isCopy⟩
    rw [same.nodes]
    refine ⟨copy, there, inForce, isInForce.congr fun nodeId _ => ?_, isCopy⟩
    rw [same.nodes]
  focusTable := same.focusableNodeIds ▸ copied.focusTable
  viewTable := by
    rw [same.nodes, same.viewNodeIds]
    exact copied.viewTable

/-- Moving the next source node makes its copy, if the node to be its parent is active. -/
theorem Copied.grow {self tree : DispatchTree L} {start : Nat}
    {sources : List (DispatchNode L)} {source : DispatchNode L} {opened : List DispatchNodeId}
    (copied : Copied self start sources tree) (above : Above self tree opened)
    (bounded : self.Bounded) (inside : ∀ nodeId ∈ opened, self.nodes.length ≤ nodeId)
    (active : tree.nodeStack.getLast? = self.copyParent start source.parent) :
    Copied self start (sources ++ [source]) (tree.grow (tree.moved source)) where
  len := by
    simp only [DispatchTree.grow, List.length_append, List.length_singleton, copied.len,
      Nat.add_assoc]
  old nodeId bound := by
    have here : nodeId < tree.nodes.length := bound.trans_le (copied.len ▸ Nat.le_add_right _ _)
    rw [getElem?_grow_old here, copied.old nodeId bound]
  copies index other here := by
    rcases Nat.lt_trichotomy index sources.length with less | rfl | more
    · rw [List.getElem?_append_left less] at here
      rcases copied.copies index other here with ⟨copy, there, inForce, isInForce, isCopy⟩
      have bound := (List.getElem?_eq_some_iff.mp there).1
      exact ⟨copy, (getElem?_grow_old bound).trans there, inForce,
        isInForce.congr fun _ => getElem?_grow_old, isCopy⟩
    · rw [List.getElem?_concat_length, Option.some.injEq] at here
      subst here
      refine ⟨tree.moved source, ?_, tree.viewStack.getLast?, ?_, ?_⟩
      · rw [← copied.len]
        exact getElem?_grow_new
      · exact (above.viewInForce bounded inside).congr fun _ => getElem?_grow_old
      · rw [moved, active]
    · have outside : (sources ++ [source])[index]? = none := by
        simp
        omega
      rw [outside] at here
      cases here
  focusTable := by
    have leads := copied.focusTable.snoc source.focusId
    rw [List.length_map, ← copied.len] at leads
    rw [List.map_append]
    exact leads
  viewTable := by
    have leads := copied.viewTable.snoc (tree.moved source).viewId
    have within : self.nodes.length ≤ tree.nodes.length := copied.len ▸ Nat.le_add_right _ _
    rw [List.length_map, List.length_drop, Nat.add_sub_cancel' within] at leads
    change LeadsToLast (((tree.nodes ++ [tree.moved source]).drop _).map _) _ _ _
    rw [List.drop_append_of_le_length within, List.map_append]
    exact leads

/-! ## The loops -/

/-- Leaving the nodes that are not the parent closes their copies. -/
theorem leaveUntil_above {self tree : DispatchTree L} {parent : Option DispatchNodeId}
    {opened left : List DispatchNodeId} {copyIds : DispatchNodeId → DispatchNodeId}
    (above : Above self tree ((opened ++ left).map copyIds))
    (stops : opened = [] ∨ parent = opened.getLast?) (leave : ∀ nodeId ∈ left, parent ≠ some nodeId) :
    ∃ reached, leaveUntil parent (opened ++ left).reverse tree = some (opened.reverse, reached) ∧
      Above self reached (opened.map copyIds) ∧ SameNodes tree reached := by
  induction left using List.reverseRecOn generalizing tree with
  | nil =>
      rw [List.append_nil] at above ⊢
      refine ⟨tree, ?_, above, .refl tree⟩
      rcases List.eq_nil_or_concat opened with rfl | ⟨front, top, rfl⟩
      · exact leaveUntil_nil
      · rcases stops with empty | isParent
        · simp at empty
        · rw [List.concat_eq_append, List.getLast?_concat] at isParent
          rw [List.concat_eq_append, List.reverse_concat, leaveUntil, if_pos isParent]
  | append_singleton left top ih =>
      rw [← List.append_assoc, List.map_append] at above
      rcases above.popNode with ⟨popped, pops, stillAbove⟩
      have different : parent ≠ some top :=
        leave top (List.mem_append_right _ List.mem_cons_self)
      rcases ih stillAbove fun nodeId member => leave nodeId (List.mem_append_left _ member) with
        ⟨reached, leaves, reachedAbove, same⟩
      refine ⟨reached, ?_, reachedAbove, (SameNodes.of_popNode pops).trans same⟩
      rw [← List.append_assoc, List.reverse_concat, leaveUntil, if_neg different, pops]
      exact leaves

theorem reuseNodes_append (sourceId : DispatchNodeId) (front back : List (DispatchNode L))
    (state : List DispatchNodeId × DispatchTree L) :
    reuseNodes sourceId (front ++ back) state =
      (reuseNodes sourceId front state).bind (reuseNodes (sourceId + front.length) back) := by
  induction front generalizing sourceId state with
  | nil => simp [reuseNodes]
  | cons source front ih =>
      rcases state with ⟨stack, tree⟩
      simp only [List.cons_append, reuseNodes, ih, List.length_cons, Option.bind_eq_bind,
        Option.bind_assoc, Nat.add_right_comm, Nat.add_assoc]

/-- The loop after a part of the range: all nodes on the way to the last of them are on
the stack, whether or not they were closed since. -/
structure Replayed (before : DispatchTree L) (start : Nat) (sources : List (DispatchNode L))
    (lineage : List DispatchNodeId) (tree : DispatchTree L) : Prop where
  increasing : lineage.Pairwise (· < ·)
  inRange : ∀ nodeId ∈ lineage, start ≤ nodeId ∧ nodeId < start + sources.length
  runs : reuseNodes start sources ([], before) = some (lineage.reverse, tree)
  copied : Copied before start sources tree
  above : Above before tree (lineage.map (before.copyId start))

theorem Replayed.push {self tree : DispatchTree L} {start : Nat}
    {sources : List (DispatchNode L)} {source : DispatchNode L} {opened left : List DispatchNodeId}
    {outer : Option DispatchNodeId} (replayed : Replayed self start sources (opened ++ left) tree)
    (bounded : self.Bounded) (outside : ∀ nodeId ∈ outer, nodeId < start)
    (parent : source.parent = opened.getLast?.or outer) :
    ∃ next, Replayed self start (sources ++ [source])
      (opened ++ [start + sources.length]) next := by
  have openedInRange : ∀ nodeId ∈ opened, start ≤ nodeId ∧ nodeId < start + sources.length :=
    fun nodeId member => replayed.inRange nodeId (List.mem_append_left _ member)
  have increasing := List.pairwise_append.mp replayed.increasing
  have stops : opened = [] ∨ source.parent = opened.getLast? := by
    rcases List.eq_nil_or_concat opened with empty | ⟨front, top, rfl⟩
    · exact Or.inl empty
    · right
      rw [parent, List.concat_eq_append, List.getLast?_concat, Option.some_or]
  have leave : ∀ nodeId ∈ left, source.parent ≠ some nodeId := by
    intro nodeId member isParent
    rw [parent, Option.or_eq_some_iff] at isParent
    rcases isParent with isTop | ⟨-, isOuter⟩
    · exact lt_irrefl nodeId (increasing.2.2 nodeId (List.mem_of_getLast? isTop) nodeId member)
    · exact absurd (replayed.inRange nodeId (List.mem_append_right _ member)).1
        (not_le.mpr (outside nodeId isOuter))
  rcases leaveUntil_above replayed.above stops leave with ⟨reached, leaves, above, same⟩
  have active : reached.nodeStack.getLast? = self.copyParent start source.parent := by
    rw [above.nodeStack, List.getLast?_append, List.getLast?_map, parent]
    cases isTop : opened.getLast? with
    | none =>
        cases outerIs : outer with
        | none => rfl
        | some nodeId =>
            simp [copyParent, not_le.mpr (outside nodeId outerIs), activeNodeId]
    | some top =>
        simp [copyParent, (openedInRange top (List.mem_of_getLast? isTop)).1]
  have copiesInside : ∀ nodeId ∈ opened.map (self.copyId start), self.nodes.length ≤ nodeId := by
    intro nodeId member
    rcases List.mem_map.mp member with ⟨original, -, rfl⟩
    exact Nat.le_add_left _ _
  have copied := replayed.copied.of_sameNodes same
  refine ⟨reached.grow (reached.moved source), ?_⟩
  constructor
  case increasing =>
    refine List.pairwise_append.mpr ⟨increasing.1, List.pairwise_singleton _ _, ?_⟩
    intro nodeId member last isLast
    rw [List.mem_singleton.mp isLast]
    exact (openedInRange nodeId member).2
  case inRange =>
    intro nodeId member
    rw [List.length_append, List.length_singleton]
    rcases List.mem_append.mp member with old | new
    · rcases openedInRange nodeId old with ⟨above, below⟩
      exact ⟨above, below.trans (Nat.lt_succ_self _)⟩
    · rw [List.mem_singleton.mp new]
      exact ⟨Nat.le_add_right _ _, Nat.lt_succ_self _⟩
  case runs =>
    rw [reuseNodes_append, replayed.runs, Option.bind_some, reuseNodes, leaves]
    simp only [Option.bind_eq_bind, Option.bind_some, moveNode_eq, reuseNodes,
      List.reverse_concat]
  case copied => exact copied.grow above bounded copiesInside active
  case above =>
    have grown : Above self (reached.grow (reached.moved source)) _ := above.grow rfl
    rw [copied.len] at grown
    rw [List.map_append, List.map_singleton, copyId, Nat.add_sub_cancel_left, Nat.add_comm]
    exact grown

/-- The loop replays the walk that pushed the range. -/
theorem Walk.replayed {self : DispatchTree L} (bounded : self.Bounded) {start : Nat}
    {outer : Option DispatchNodeId} (outside : ∀ nodeId ∈ outer, nodeId < start)
    {parents : List (Option DispatchNodeId)} {opened : List DispatchNodeId}
    (walk : Walk start outer parents opened) {sources : List (DispatchNode L)}
    (same : sources.map DispatchNode.parent = parents) :
    ∃ left tree, Replayed self start sources (opened ++ left) tree := by
  induction walk generalizing sources with
  | nil =>
      rcases List.map_eq_nil_iff.mp same with rfl
      refine ⟨[], self, ?_⟩
      constructor
      case increasing => exact .nil
      case inRange => simp
      case runs => rfl
      case copied => exact .nil self start
      case above => exact .refl self
  | @push parents opened _ ih =>
      rcases List.map_eq_append_iff.mp same with ⟨front, back, rfl, frontSame, backSame⟩
      rcases List.map_eq_singleton_iff.mp backSame with ⟨source, rfl, parent⟩
      rcases ih frontSame with ⟨left, tree, replayed⟩
      rcases replayed.push bounded outside parent with ⟨next, pushed⟩
      have len : parents.length = front.length := by rw [← frontSame, List.length_map]
      rw [len]
      exact ⟨[], next, by rwa [List.append_nil]⟩
  | @pop _ opened top _ ih =>
      rcases ih same with ⟨left, tree, replayed⟩
      refine ⟨top :: left, tree, ?_⟩
      rwa [List.append_cons]

/-! ## The whole range -/

/-- The nodes of a range. -/
def range (self : DispatchTree L) (start stop : Nat) : List (DispatchNode L) :=
  (self.nodes.drop start).take (stop - start)

/-- Later calls leave a recorded range, and the parents in it, where they are. -/
theorem range_of_extends {recorded source : DispatchTree L} (later : Extends recorded source)
    (start : Nat) :
    ((source.range start recorded.len).length = recorded.len - start) ∧
      (source.range start recorded.len).map DispatchNode.parent = recorded.parents.drop start := by
  rcases later.parents with ⟨more, split⟩
  have longer : recorded.nodes.length ≤ source.nodes.length := by
    have lengths := later.parents.length_le
    rwa [length_parents, length_parents] at lengths
  constructor
  · rw [range, List.length_take, List.length_drop, len]
    omega
  · rw [range, List.map_take, List.map_drop]
    change (source.parents.drop start).take (recorded.len - start) = _
    rw [← List.drop_take, len, ← length_parents, ← split, List.take_left]

/-- What is reused is copied in order under the active node, and the stacks are as they
were. -/
theorem reuseSubtree_copies {before recording after others : List (DispatchTreeEvent L)}
    {opened closed source self : DispatchTree L} (began : Run step Anything new before opened)
    (recorded : Run step (Inside opened) opened recording closed)
    (balanced : closed.nodeStack = opened.nodeStack)
    (finished : Run step Anything closed after source)
    (destination : Run step Anything new others self) (focus : Option FocusId) :
    (source.range opened.len closed.len).length = closed.len - opened.len ∧
      ∃ reused reached rest,
        self.reuseSubtree source opened.len closed.len focus = some (reused, reached, rest) ∧
          Copied self opened.len (source.range opened.len closed.len) reached ∧
          reached.nodeStack = self.nodeStack ∧ reached.contextStack = self.contextStack ∧
          reached.viewStack = self.viewStack ∧
          ∀ nodeId, opened.len ≤ nodeId → nodeId < closed.len →
            reused.refreshNodeId nodeId = some (self.copyId opened.len nodeId) := by
  have outside : ∀ nodeId ∈ opened.nodeStack.getLast?, nodeId < opened.len :=
    fun nodeId active => bounded_of_run began nodeId (List.mem_of_getLast? active)
  have walk := (recorded_of_run recorded balanced).walk
  rcases range_of_extends (Extends.run finished) opened.len with ⟨length, parents⟩
  rcases walk.replayed (bounded_of_run destination) outside parents with ⟨left, tree, replayed⟩
  rw [List.nil_append] at replayed
  -- no node is the parent `none`: the last loop closes all that is still open
  have noParent : ∀ nodeId ∈ left, (none : Option DispatchNodeId) ≠ some nodeId :=
    fun _ _ => nofun
  rcases leaveUntil_above replayed.above (Or.inl rfl) noParent with
    ⟨reached, leaves, above, same⟩
  rw [List.nil_append, List.reverse_nil] at leaves
  have walks : reuseNodes opened.len ((source.nodes.drop opened.len).take
      (closed.len - opened.len)) ([], self) = some (left.reverse, tree) := replayed.runs
  refine ⟨length, ⟨opened.len, closed.len, self.nodes.length,
    self.nodes.length + (closed.len - opened.len),
    (source.range opened.len closed.len).any fun node =>
      node.focusId.isSome && node.focusId == focus⟩,
    reached, source.takeListeners opened.len closed.len, ?_, replayed.copied.of_sameNodes same,
    ?_, ?_, ?_, ?_⟩
  · simp only [reuseSubtree, walks, leaves, Option.bind_eq_bind, Option.bind_some]
    rfl
  · simpa using above.nodeStack
  · simpa [contextsOf] using above.contexts
  · simpa [viewsOf] using above.views
  · intro nodeId inside within
    exact if_pos ⟨inside, within⟩

/-- A focused node with a child, reused under another tree's root. -/
theorem reuseSubtree_copies_focused :
    ∃ source self : DispatchTree Nat, self.len = 1 ∧ (source.range 1 3).length = 2 ∧
      ∃ reused reached rest, self.reuseSubtree source 1 3 none = some (reused, reached, rest) ∧
        Copied self 1 (source.range 1 3) reached ∧ reached.nodeStack = [0] ∧
        reused.refreshNodeId 2 = some 2 := by
  let opened : DispatchTree Nat := pushNode new
  have began : Run step Anything new [.pushNode] opened := .cons trivial rfl .nil
  have recorded : Run step (Inside opened) opened
      [.pushNode, .setFocusId 5, .pushNode, .popNode, .popNode] _ :=
    .cons trivial rfl <| .cons trivial rfl <| .cons trivial rfl <|
      .cons (by change [0, 1, 2] ≠ [0]; decide) rfl <|
      .cons (by change [0, 1] ≠ [0]; decide) rfl .nil
  have copies := reuseSubtree_copies began recorded rfl
    (.cons trivial (Eq.refl (step _ .popNode)) .nil) began none
  rcases copies with ⟨length, reused, reached, rest, reuses, copied, nodeStack, -, -, refresh⟩
  exact ⟨_, _, rfl, length, reused, reached, rest, reuses, copied, nodeStack,
    refresh 2 (by decide) (by decide)⟩

/-- Under a node in the same view, a copy is left without the view id of its node. -/
theorem exists_reuseSubtree_drops_view :
    ∃ opened closed self : DispatchTree Nat,
      Run step Anything new [] opened ∧
        Run step (Inside opened) opened [.pushNode, .setViewId 1, .popNode] closed ∧
        closed.nodeStack = opened.nodeStack ∧
        Run step Anything new [.pushNode, .setViewId 1] self ∧
        ∃ reused reached rest,
          self.reuseSubtree closed opened.len closed.len none = some (reused, reached, rest) ∧
            closed.nodes[0]?.map DispatchNode.viewId = some (some 1) ∧
            reached.nodes[1]?.map DispatchNode.viewId = some none := by
  refine ⟨new, _, _, .nil, .cons trivial rfl <| .cons trivial rfl <| .cons ?_ rfl .nil, rfl,
    .cons trivial rfl <| .cons trivial rfl .nil, _, _, _, rfl, rfl, rfl⟩
  change [0] ≠ []
  decide

end DispatchTree

end Gpui
