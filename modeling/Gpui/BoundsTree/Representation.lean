import Gpui.BoundsTree.Core
import Gpui.Library.ArenaTree

/-!
# What a bounds tree represents

A bounds tree represents the list of rectangles inserted so far together with
the orders returned for them.  The invariant reads the arena as an
`ArenaTree` whose summaries dominate their subtrees: cached bounds cover, and
cached orders are not below, everything underneath.  The branch-and-bound
search is exact under that invariant alone.
-/

namespace Gpui.BoundsTree

open Gpui.Library
open Gpui.Library.ArenaTree

variable {K : Type}

/-- An inserted rectangle with its order, or the summary of a subtree. -/
abbrev Entry (K : Type) := Bounds K × DrawOrder

def Node.cell : Node K → Cell (Entry K)
  | leaf bounds order => .leaf (bounds, order)
  | internal left right bounds maxOrder => .internal left right (bounds, maxOrder)

/-- The arena of a node vector. -/
def readNodes (nodes : List (Node K)) (index : Nat) : Option (Cell (Entry K)) :=
  nodes[index]?.map Node.cell

theorem readNodes_eq_leaf_iff {nodes : List (Node K)} {index : Nat} {entry : Entry K} :
    readNodes nodes index = some (.leaf entry) ↔
      nodes[index]? = some (.leaf entry.1 entry.2) := by
  unfold readNodes
  cases nodes[index]? with
  | none => simp
  | some node => cases node <;> simp [Node.cell, Prod.ext_iff]

theorem readNodes_eq_internal_iff {nodes : List (Node K)} {index left right : Nat}
    {entry : Entry K} :
    readNodes nodes index = some (.internal left right entry) ↔
      nodes[index]? = some (.internal left right entry.1 entry.2) := by
  unfold readNodes
  cases nodes[index]? with
  | none => simp
  | some node => cases node <;> simp [Node.cell, Prod.ext_iff]

theorem readNodes_set_ne {nodes : List (Node K)} {index other : Nat} (node : Node K)
    (distinct : other ≠ index) :
    readNodes (nodes.set index node) other = readNodes nodes other := by
  simp [readNodes, List.getElem?_set_ne distinct.symm]

theorem readNodes_set_self {nodes : List (Node K)} {index : Nat} (node : Node K)
    (present : (readNodes nodes index).isSome) :
    readNodes (nodes.set index node) index = some node.cell := by
  have inBounds : index < nodes.length := by
    simpa [readNodes] using present
  simp [readNodes, List.getElem?_set_self inBounds]

theorem readNodes_append_of_isSome {nodes : List (Node K)} {index : Nat} (node : Node K)
    (present : (readNodes nodes index).isSome) :
    readNodes (nodes ++ [node]) index = readNodes nodes index := by
  have inBounds : index < nodes.length := by
    simpa [readNodes] using present
  simp [readNodes, List.getElem?_append_left inBounds]

@[simp]
theorem readNodes_append_length (nodes : List (Node K)) (node : Node K) :
    readNodes (nodes ++ [node]) nodes.length = some node.cell := by
  simp [readNodes]

/-- A shape stored in the arena has at most as many addresses as there are
nodes, so the loop bounds of the model are never the reason for a failure. -/
theorem height_le_length {nodes : List (Node K)} {shape : ArenaTree (Entry K)}
    (stored : shape.Stored (readNodes nodes)) (distinct : shape.addrs.Nodup) :
    shape.height ≤ nodes.length := by
  have inRange : shape.addrs ⊆ List.range nodes.length := by
    intro addr member
    have present := stored.isSome addr member
    simpa [readNodes] using present
  have counted := (distinct.subperm inRange).length_le
  rw [List.length_range] at counted
  exact (height_le_addrs_length shape).trans counted

section Search

variable [Field K] [LinearOrder K]

/-- A parent summary dominates a child summary. -/
def Dominates (parent child : Entry K) : Prop :=
  parent.1.Covers child.1 ∧ child.2 ≤ parent.2

theorem Dominates.refl (entry : Entry K) : Dominates entry entry :=
  ⟨Bounds.Covers.refl _, le_rfl⟩

theorem Dominates.trans {first second third : Entry K}
    (outer : Dominates first second) (inner : Dominates second third) :
    Dominates first third :=
  ⟨outer.1.trans inner.1, inner.2.trans outer.2⟩

/-- The largest order among the entries that overlap `bounds`, or zero. -/
def overlapMax (bounds : Bounds K) : List (Entry K) → DrawOrder
  | [] => 0
  | entry :: entries =>
      if entry.1.intersects bounds then max entry.2 (overlapMax bounds entries)
      else overlapMax bounds entries

example (bounds : Bounds K) : overlapMax bounds [] = 0 := by
  simp [overlapMax]

theorem overlapMax_append (bounds : Bounds K) (first second : List (Entry K)) :
    overlapMax bounds (first ++ second) =
      max (overlapMax bounds first) (overlapMax bounds second) := by
  induction first with
  | nil => simp [overlapMax]
  | cons entry entries ih =>
      simp only [List.cons_append, overlapMax, ih]
      split
      · rw [max_assoc]
      · rfl

theorem overlapMax_perm {bounds : Bounds K} {first second : List (Entry K)}
    (permuted : first.Perm second) : overlapMax bounds first = overlapMax bounds second := by
  induction permuted with
  | nil => rfl
  | cons entry _ ih => simp only [overlapMax, ih]
  | swap first second rest =>
      simp only [overlapMax]
      split <;> split <;> simp [max_left_comm]
  | trans _ _ firstIh secondIh => exact firstIh.trans secondIh

theorem overlapMax_le {bounds : Bounds K} {entries : List (Entry K)} {order : DrawOrder}
    (below : ∀ entry ∈ entries, entry.2 ≤ order) : overlapMax bounds entries ≤ order := by
  induction entries with
  | nil => exact word_zero_le order
  | cons entry entries ih =>
      have rest := ih fun other member => below other (List.mem_cons_of_mem _ member)
      simp only [overlapMax]
      split
      · exact max_le (below entry List.mem_cons_self) rest
      · exact rest

theorem le_overlapMax {bounds : Bounds K} {entries : List (Entry K)} {entry : Entry K}
    (member : entry ∈ entries) (overlap : entry.1.intersects bounds = true) :
    entry.2 ≤ overlapMax bounds entries := by
  induction entries with
  | nil => simp at member
  | cons first entries ih =>
      simp only [overlapMax]
      rcases List.mem_cons.mp member with rfl | member
      · simp [overlap]
      · have rest := ih member
        split
        · exact rest.trans (le_max_right _ _)
        · exact rest

theorem overlapMax_eq_zero {bounds : Bounds K} {entries : List (Entry K)}
    (apart : ∀ entry ∈ entries, entry.1.intersects bounds = false) :
    overlapMax bounds entries = 0 := by
  induction entries with
  | nil => rfl
  | cons entry entries ih =>
      have here := apart entry List.mem_cons_self
      simp only [overlapMax, here, Bool.false_eq_true, if_false]
      exact ih fun other member => apart other (List.mem_cons_of_mem _ member)

/-- Pruning never changes the answer: below a dominating summary the search
returns the exact maximum, whatever it had found before. -/
theorem findMaxOrdering_eq {nodes : List (Node K)} {shape : ArenaTree (Entry K)}
    (stored : shape.Stored (readNodes nodes)) (summarised : shape.Summarised Dominates)
    {depth : Nat} (deep : shape.height ≤ depth) (bounds : Bounds K) (maxOrdering : DrawOrder) :
    findMaxOrdering nodes depth shape.addr bounds maxOrdering =
      some (max maxOrdering (overlapMax bounds shape.leaves)) := by
  induction shape generalizing depth maxOrdering with
  | leaf addr entry =>
      obtain ⟨depth, rfl⟩ : ∃ previous, depth = previous + 1 :=
        Nat.exists_eq_succ_of_ne_zero (by simp [height] at deep; omega)
      have here := readNodes_eq_leaf_iff.1 stored
      simp only [findMaxOrdering, addr_leaf, here, leaves, overlapMax,
        bounds.intersects_comm entry.1]
      split
      · simp [max_comm]
      · simp
  | node addr entry left right leftIh rightIh =>
      obtain ⟨depth, rfl⟩ : ∃ previous, depth = previous + 1 :=
        Nat.exists_eq_succ_of_ne_zero (by simp [height] at deep; omega)
      have dominated := summarised.dominates_leaf Dominates.refl Dominates.trans
      obtain ⟨here, storedLeft, storedRight⟩ := stored
      obtain ⟨_, _, inLeft, inRight⟩ := summarised
      have here := readNodes_eq_internal_iff.1 here
      simp only [height] at deep
      have deepLeft : left.height ≤ depth := by omega
      have deepRight : right.height ≤ depth := by omega
      have searchLeft := leftIh storedLeft inLeft deepLeft
      have searchRight := rightIh storedRight inRight deepRight
      simp only [findMaxOrdering, addr_node, here]
      split
      · -- neither cached bound lets the search stop: both children are visited
        have leftPresent := storedLeft.isSome _ (addr_mem_addrs left)
        have rightPresent := storedRight.isSome _ (addr_mem_addrs right)
        simp only [readNodes, Option.isSome_map] at leftPresent rightPresent
        obtain ⟨leftNode, leftRead⟩ := Option.isSome_iff_exists.mp leftPresent
        obtain ⟨rightNode, rightRead⟩ := Option.isSome_iff_exists.mp rightPresent
        simp only [leftRead, rightRead, Option.map_some, Option.bind_eq_bind, Option.bind_some,
          searchLeft, searchRight, leaves, overlapMax_append]
        split
        · rw [max_assoc]
        · rw [max_assoc, max_comm (overlapMax bounds right.leaves)]
      · rename_i pruned
        simp only [Option.some.injEq]
        by_cases overlap : bounds.intersects entry.1 = true
        · -- the cached order is not above what was already found
          have notAbove : entry.2 ≤ maxOrdering := by
            simpa [overlap] using pruned
          exact (max_eq_left ((overlapMax_le fun leaf member =>
            (dominated leaf member).2).trans notAbove)).symm
        · -- the cached bounds miss the query
          have apart : ∀ leaf ∈ (node addr entry left right).leaves,
              leaf.1.intersects bounds = false := by
            intro leaf member
            by_contra meets
            have meets := Bool.not_eq_false _ ▸ meets
            apply overlap
            rw [Bounds.intersects_comm]
            exact (dominated leaf member).1.intersects meets
          rw [overlapMax_eq_zero apart, max_zero_word]

end Search

section Invariant

variable [Field K] [LinearOrder K]

/-- `shape` is what the nodes hold, and its leaves are the inserted entries. -/
structure HasShape (nodes : List (Node K)) (entries : List (Entry K))
    (shape : ArenaTree (Entry K)) : Prop where
  stored : shape.Stored (readNodes nodes)
  distinct : shape.addrs.Nodup
  summarised : shape.Summarised Dominates
  leaves_perm : shape.leaves.Perm entries

/-- The representation invariant between two insertions. -/
structure Represents (tree : BoundsTree K) (entries : List (Entry K)) : Prop where
  stack_eq : tree.stack = []
  shape : match tree.root with
    | none => entries = []
    | some index => ∃ shape, shape.addr = index ∧ HasShape tree.nodes entries shape

theorem represents_empty : Represents (empty : BoundsTree K) [] :=
  ⟨rfl, rfl⟩

theorem represents_clear (tree : BoundsTree K) : Represents tree.clear [] :=
  ⟨rfl, rfl⟩

end Invariant

end Gpui.BoundsTree
