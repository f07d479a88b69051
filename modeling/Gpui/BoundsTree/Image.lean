import Gpui.BoundsTree.Core

/-!
# Images of bounds trees

The tree unites rectangles, tests whether they overlap and compares half perimeters of
unions.  A map of rectangles that respects these maps every tree that insertion builds,
and leaves the orders as they are.
-/

namespace Gpui

namespace BoundsTree

variable {K L : Type}

def Node.image (map : Bounds K → Bounds L) : Node K → Node L
  | leaf bounds order => leaf (map bounds) order
  | internal left right bounds maxOrder => internal left right (map bounds) maxOrder

def image (map : Bounds K → Bounds L) (tree : BoundsTree K) : BoundsTree L where
  root := tree.root
  nodes := tree.nodes.map (Node.image map)
  stack := tree.stack

@[simp]
theorem Node.image_leaf (map : Bounds K → Bounds L) (bounds : Bounds K) (order : DrawOrder) :
    (Node.leaf bounds order).image map = .leaf (map bounds) order := rfl

@[simp]
theorem Node.image_internal (map : Bounds K → Bounds L) (left right : Nat) (bounds : Bounds K)
    (maxOrder : DrawOrder) :
    (Node.internal left right bounds maxOrder).image map =
      .internal left right (map bounds) maxOrder := rfl

@[simp]
theorem Node.image_bounds (map : Bounds K → Bounds L) (node : Node K) :
    (node.image map).bounds = map node.bounds := by
  cases node <;> rfl

@[simp]
theorem Node.image_maxOrdering (map : Bounds K → Bounds L) (node : Node K) :
    (node.image map).maxOrdering = node.maxOrdering := by
  cases node <;> rfl

theorem replaceChild_image (map : Bounds K → Bounds L) (nodes : List (Node K))
    (oldParent sibling newParent : Nat) :
    replaceChild (nodes.map (Node.image map)) oldParent sibling newParent =
      (replaceChild nodes oldParent sibling newParent).map (List.map (Node.image map)) := by
  rw [replaceChild, replaceChild, List.getElem?_map]
  cases nodes[oldParent]? with
  | none => rfl
  | some node =>
      cases node with
      | leaf bounds order => rfl
      | internal left right bounds maxOrder =>
          simp only [Option.map_some, Node.image_internal]
          split
          · rw [Option.map_some, List.map_set, Node.image_internal]
          · rw [Option.map_some, List.map_set, Node.image_internal]

theorem relink_image (map : Bounds K → Bounds L) (root : Option Nat) (nodes : List (Node K))
    (stack : List Nat) (sibling newParent : Nat) :
    relink root (nodes.map (Node.image map)) stack sibling newParent =
      (relink root nodes stack sibling newParent).map
        (Prod.map id (List.map (Node.image map))) := by
  rw [relink, relink]
  cases stack.getLast? with
  | none => rfl
  | some oldParent =>
      simp only [replaceChild_image]
      cases replaceChild nodes oldParent sibling newParent with
      | none => rfl
      | some nodes => rfl

theorem raiseMaxOrder_image (map : Bounds K → Bounds L) (ordering : DrawOrder) (stack : List Nat)
    (nodes : List (Node K)) :
    raiseMaxOrder ordering stack (nodes.map (Node.image map)) =
      (raiseMaxOrder ordering stack nodes).map (List.map (Node.image map)) := by
  induction stack generalizing nodes with
  | nil => rfl
  | cons nodeIndex rest ih =>
      rw [raiseMaxOrder, raiseMaxOrder, List.getElem?_map]
      cases nodes[nodeIndex]? with
      | none => rfl
      | some node =>
          cases node with
          | leaf bounds order => rfl
          | internal left right bounds maxOrdering =>
              simp only [Option.map_some, Node.image_internal]
              split
              · rfl
              · rw [← ih, List.map_set, Node.image_internal]

variable [Field K] [LinearOrder K] [Field L] [LinearOrder L]

structure Respects (map : Bounds K → Bounds L) : Prop where
  union : ∀ first second : Bounds K, (map first).union (map second) = map (first.union second)
  intersects : ∀ first second : Bounds K,
    (map first).intersects (map second) = first.intersects second
  halfPerimeter_lt : ∀ first second : Bounds K,
    (map first).halfPerimeter < (map second).halfPerimeter ↔
      first.halfPerimeter < second.halfPerimeter

variable {map : Bounds K → Bounds L}

theorem Respects.findMaxOrdering (respects : Respects map) (nodes : List (Node K)) (depth : Nat)
    (index : Nat) (bounds : Bounds K) (maxOrdering : DrawOrder) :
    findMaxOrdering (nodes.map (Node.image map)) depth index (map bounds) maxOrdering =
      findMaxOrdering nodes depth index bounds maxOrdering := by
  induction depth generalizing index maxOrdering with
  | zero => rfl
  | succ depth ih =>
      rw [BoundsTree.findMaxOrdering, BoundsTree.findMaxOrdering, List.getElem?_map]
      cases nodes[index]? with
      | none => rfl
      | some node =>
          cases node with
          | leaf nodeBounds order =>
              simp only [Option.map_some, Node.image_leaf, respects.intersects]
          | internal left right nodeBounds nodeMaxOrdering =>
              simp only [Option.map_some, Node.image_internal, respects.intersects,
                List.getElem?_map, Option.map_map, Function.comp_def, Node.image_maxOrdering, ih]

theorem Respects.pushInternal (respects : Respects map) (nodes : List (Node K))
    (left right : Nat) :
    pushInternal (nodes.map (Node.image map)) left right =
      (pushInternal nodes left right).map
        (Prod.map id (List.map (Node.image map))) := by
  simp only [BoundsTree.pushInternal, List.getElem?_map]
  cases nodes[left]? with
  | none => rfl
  | some leftNode =>
      cases nodes[right]? with
      | none => rfl
      | some rightNode =>
          simp [respects.union]

theorem Respects.descend (respects : Respects map) (newBounds : Bounds K) (steps : Nat)
    (nodes : List (Node K)) (stack : List Nat) (index : Nat) (maxOrdering : DrawOrder) :
    descend (map newBounds) steps (nodes.map (Node.image map)) stack index maxOrdering =
      (descend newBounds steps nodes stack index maxOrdering).map
        (Prod.map (List.map (Node.image map)) id) := by
  induction steps generalizing nodes stack index maxOrdering with
  | zero => rfl
  | succ steps ih =>
      rw [BoundsTree.descend, BoundsTree.descend, List.getElem?_map]
      cases nodes[index]? with
      | none => rfl
      | some node =>
          cases node with
          | leaf nodeBounds order => rfl
          | internal left right nodeBounds maxOrder =>
              have set_image : (nodes.map (Node.image map)).set index
                  (.internal left right ((map nodeBounds).union (map newBounds)) maxOrder) =
                    (nodes.set index
                      (.internal left right (nodeBounds.union newBounds) maxOrder)).map
                        (Node.image map) := by
                rw [List.map_set, Node.image_internal, respects.union]
              simp only [Option.map_some, Node.image_internal, set_image, List.getElem?_map]
              generalize nodes.set index _ = entered
              cases entered[left]? with
              | none => rfl
              | some leftNode =>
                  cases entered[right]? with
                  | none => rfl
                  | some rightNode =>
                      simp only [Option.map_some, Option.bind_eq_bind, Option.bind_some,
                        Node.image_bounds, respects.union, respects.halfPerimeter_lt,
                        List.length_map, respects.findMaxOrdering]
                      split
                      · rw [Option.map_bind]
                        exact congrArg _ (funext fun maxOrdering => ih ..)
                      · rw [Option.map_bind]
                        exact congrArg _ (funext fun maxOrdering => ih ..)

theorem Respects.insert (respects : Respects map) (tree : BoundsTree K) (newBounds : Bounds K) :
    insert (tree.image map) (map newBounds) =
      (insert tree newBounds).map (Prod.map id (image map)) := by
  rw [BoundsTree.insert, BoundsTree.insert, image]
  cases tree.root with
  | none => simp [pushLeaf, image]
  | some index =>
      simp only [List.length_map, respects.descend]
      cases BoundsTree.descend newBounds tree.nodes.length tree.nodes tree.stack index 0 with
      | none => rfl
      | some walked =>
          rcases walked with ⟨nodes, stack, sibling, maxOrdering⟩
          simp only [Option.map_some, Option.bind_eq_bind, Option.bind_some, Prod.map, id,
            List.getElem?_map]
          cases nodes[sibling]? with
          | none => rfl
          | some node =>
              cases node with
              | internal left right bounds maxOrder => rfl
              | leaf siblingBounds siblingOrdering =>
                  simp only [Option.map_some, Node.image_leaf, respects.intersects, pushLeaf,
                    List.length_map]
                  generalize (if siblingBounds.intersects newBounds = true then
                    max maxOrdering siblingOrdering else maxOrdering) + 1 = ordering
                  have pushed : nodes.map (Node.image map) ++ [Node.leaf (map newBounds) ordering] =
                      (nodes ++ [Node.leaf newBounds ordering]).map (Node.image map) := by
                    rw [List.map_append, List.map_singleton, Node.image_leaf]
                  rw [pushed, respects.pushInternal]
                  cases BoundsTree.pushInternal (nodes ++ [Node.leaf newBounds ordering]) sibling
                      nodes.length with
                  | none => rfl
                  | some parent =>
                      rcases parent with ⟨newParent, nodes⟩
                      simp only [Option.map_some, Option.bind_some, Prod.map, id, relink_image]
                      cases relink (some index) nodes stack sibling newParent with
                      | none => rfl
                      | some linked =>
                          rcases linked with ⟨root, nodes⟩
                          simp only [Option.map_some, Option.bind_some, Prod.map, id,
                            raiseMaxOrder_image]
                          cases raiseMaxOrder ordering stack.reverse nodes with
                          | none => rfl
                          | some nodes => rfl

end BoundsTree

end Gpui
