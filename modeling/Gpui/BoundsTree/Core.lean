import Gpui.Geometry
import Gpui.Library.Word

/-!
# The bounds tree

A binary tree of rectangles in an arena of nodes, used to assign draw orders:
inserting a rectangle returns one more than the largest order of an earlier
rectangle that it overlaps.  Every node caches the union of the rectangles
below it and the largest order below it, and the search prunes on both.

Loops over the arena are bounded by the number of its nodes; indexing out of
bounds, reaching an `unreachable!` arm or running out of that bound all yield
`none`.
-/

namespace Gpui

open Gpui.Library

/-- Draw orders are `u32`; the increment wraps. -/
abbrev DrawOrder := UInt32

/-- `DrawOrder::MAX`. -/
def DrawOrder.MAX : DrawOrder :=
  4294967295

theorem DrawOrder.le_max (order : DrawOrder) : order ≤ DrawOrder.MAX := by
  rw [UInt32.le_iff_toNat_le]
  have below := order.toNat_lt
  have max_eq : DrawOrder.MAX.toNat = 2 ^ 32 - 1 := rfl
  omega

namespace BoundsTree

inductive Node (K : Type) where
  | leaf (bounds : Bounds K) (order : DrawOrder)
  | internal (left right : Nat) (bounds : Bounds K) (maxOrder : DrawOrder)
deriving DecidableEq, Repr

namespace Node

variable {K : Type}

def bounds : Node K → Bounds K
  | leaf bounds _ => bounds
  | internal _ _ bounds _ => bounds

def maxOrdering : Node K → DrawOrder
  | leaf _ ordering => ordering
  | internal _ _ _ maxOrdering => maxOrdering

end Node

end BoundsTree

structure BoundsTree (K : Type) where
  root : Option Nat
  nodes : List (BoundsTree.Node K)
  stack : List Nat
deriving DecidableEq, Repr

namespace BoundsTree

variable {K : Type}

/-- `BoundsTree::default`. -/
def empty : BoundsTree K where
  root := none
  nodes := []
  stack := []

def clear (_ : BoundsTree K) : BoundsTree K where
  root := none
  nodes := []
  stack := []

def pushLeaf (nodes : List (Node K)) (bounds : Bounds K) (order : DrawOrder) :
    Nat × List (Node K) :=
  (nodes.length, nodes ++ [.leaf bounds order])

variable [Field K] [LinearOrder K]

def pushInternal (nodes : List (Node K)) (left right : Nat) :
    Option (Nat × List (Node K)) := do
  let leftNode ← nodes[left]?
  let rightNode ← nodes[right]?
  let newBounds := leftNode.bounds.union rightNode.bounds
  let maxOrdering := max leftNode.maxOrdering rightNode.maxOrdering
  return (nodes.length, nodes ++ [.internal left right newBounds maxOrdering])

/-- The recursive search; the first argument bounds its depth. -/
def findMaxOrdering (nodes : List (Node K)) :
    Nat → Nat → Bounds K → DrawOrder → Option DrawOrder
  | 0, _, _, _ => none
  | depth + 1, index, bounds, maxOrdering =>
      match nodes[index]? with
      | none => none
      | some (.leaf nodeBounds ordering) =>
          if bounds.intersects nodeBounds then some (max ordering maxOrdering)
          else some maxOrdering
      | some (.internal left right nodeBounds nodeMaxOrdering) =>
          if bounds.intersects nodeBounds && maxOrdering < nodeMaxOrdering then do
            let leftMaxOrdering ← nodes[left]?.map Node.maxOrdering
            let rightMaxOrdering ← nodes[right]?.map Node.maxOrdering
            if leftMaxOrdering > rightMaxOrdering then
              let maxOrdering ← findMaxOrdering nodes depth left bounds maxOrdering
              findMaxOrdering nodes depth right bounds maxOrdering
            else
              let maxOrdering ← findMaxOrdering nodes depth right bounds maxOrdering
              findMaxOrdering nodes depth left bounds maxOrdering
          else some maxOrdering

/-- The `while let Node::Internal` loop of `insert`: the visited node absorbs
the new bounds and is pushed on the stack, the cheaper child is entered and the
other one is searched. -/
def descend (newBounds : Bounds K) :
    Nat → List (Node K) → List Nat → Nat → DrawOrder →
      Option (List (Node K) × List Nat × Nat × DrawOrder)
  | 0, _, _, _, _ => none
  | steps + 1, nodes, stack, index, maxIntersectingOrdering =>
      match nodes[index]? with
      | none => none
      | some (.leaf _ _) => some (nodes, stack, index, maxIntersectingOrdering)
      | some (.internal left right nodeBounds maxOrder) => do
          let nodes := nodes.set index
            (.internal left right (nodeBounds.union newBounds) maxOrder)
          let stack := stack ++ [index]
          let leftNode ← nodes[left]?
          let rightNode ← nodes[right]?
          let leftCost := (newBounds.union leftNode.bounds).halfPerimeter
          let rightCost := (newBounds.union rightNode.bounds).halfPerimeter
          if leftCost < rightCost then
            let maxIntersectingOrdering ←
              findMaxOrdering nodes nodes.length right newBounds maxIntersectingOrdering
            descend newBounds steps nodes stack left maxIntersectingOrdering
          else
            let maxIntersectingOrdering ←
              findMaxOrdering nodes nodes.length left newBounds maxIntersectingOrdering
            descend newBounds steps nodes stack right maxIntersectingOrdering

/-- Repoint the child `sibling` of `oldParent` to `newParent`. -/
def replaceChild (nodes : List (Node K)) (oldParent sibling newParent : Nat) :
    Option (List (Node K)) :=
  match nodes[oldParent]? with
  | some (.internal left right bounds maxOrder) =>
      if left = sibling then
        some (nodes.set oldParent (.internal newParent right bounds maxOrder))
      else
        some (nodes.set oldParent (.internal left newParent bounds maxOrder))
  | _ => none

/-- Hang `newParent` where `sibling` was: below the old parent on top of the
stack, or as the root when the stack is empty. -/
def relink (root : Option Nat) (nodes : List (Node K)) (stack : List Nat)
    (sibling newParent : Nat) : Option (Option Nat × List (Node K)) :=
  match stack.getLast? with
  | some oldParent => do
      let nodes ← replaceChild nodes oldParent sibling newParent
      return (root, nodes)
  | none => some (some newParent, nodes)

/-- The final loop of `insert`, over the stack from its top. -/
def raiseMaxOrder (ordering : DrawOrder) :
    List Nat → List (Node K) → Option (List (Node K))
  | [], nodes => some nodes
  | nodeIndex :: rest, nodes =>
      match nodes[nodeIndex]? with
      | some (.internal left right bounds maxOrdering) =>
          if maxOrdering ≥ ordering then some nodes
          else
            raiseMaxOrder ordering rest
              (nodes.set nodeIndex (.internal left right bounds ordering))
      | _ => none

def insert (tree : BoundsTree K) (newBounds : Bounds K) :
    Option (DrawOrder × BoundsTree K) :=
  match tree.root with
  | none =>
      let (newNode, nodes) := pushLeaf tree.nodes newBounds 1
      some (1, { tree with root := some newNode, nodes })
  | some index => do
      let (nodes, stack, sibling, maxIntersectingOrdering) ←
        descend newBounds tree.nodes.length tree.nodes tree.stack index 0
      match nodes[sibling]? with
      | some (.leaf siblingBounds siblingOrdering) => do
          let maxIntersectingOrdering :=
            if siblingBounds.intersects newBounds then
              max maxIntersectingOrdering siblingOrdering
            else maxIntersectingOrdering
          let ordering := maxIntersectingOrdering + 1
          let (newNode, nodes) := pushLeaf nodes newBounds ordering
          let (newParent, nodes) ← pushInternal nodes sibling newNode
          let (root, nodes) ← relink tree.root nodes stack sibling newParent
          let nodes ← raiseMaxOrder ordering stack.reverse nodes
          return (ordering, { root, nodes, stack := [] })
      | _ => none

/-- Insert rectangles one after the other, collecting the returned orders. -/
def insertAll : BoundsTree K → List (Bounds K) → Option (List DrawOrder × BoundsTree K)
  | tree, [] => some ([], tree)
  | tree, newBounds :: rest => do
      let (order, tree) ← insert tree newBounds
      let (orders, tree) ← insertAll tree rest
      return (order :: orders, tree)

end BoundsTree

end Gpui
