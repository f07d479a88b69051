import Mathlib

/-!
# Binary trees stored in an arena

An arena is a partial map from addresses to cells; an internal cell names its
two children by address.  `ArenaTree` is the shape such cells may represent,
`Stored` says that an arena represents it, and `Frame` is one step of the path
from a subtree back to the root.  `plug` rebuilds the whole tree from a subtree
and its path, so a loop that walks down the arena keeps `plug` as its invariant.

`Summarised` says that the data of every internal node dominates the data of
its children, for a relation supplied by the caller.
-/

namespace Gpui.Library

universe u

/-- One arena cell. -/
inductive Cell (D : Type u) where
  | leaf (data : D)
  | internal (left right : Nat) (data : D)

/-- The shape represented by the cells reachable from one address. -/
inductive ArenaTree (D : Type u) where
  | leaf (addr : Nat) (data : D)
  | node (addr : Nat) (data : D) (left right : ArenaTree D)

/-- Which child of its parent a subtree is. -/
inductive Side where
  | left
  | right
deriving DecidableEq

namespace ArenaTree

variable {D : Type u}

def addr : ArenaTree D → Nat
  | leaf addr _ => addr
  | node addr _ _ _ => addr

def data : ArenaTree D → D
  | leaf _ data => data
  | node _ data _ _ => data

def addrs : ArenaTree D → List Nat
  | leaf addr _ => [addr]
  | node addr _ left right => addr :: (left.addrs ++ right.addrs)

def leaves : ArenaTree D → List D
  | leaf _ data => [data]
  | node _ _ left right => left.leaves ++ right.leaves

def height : ArenaTree D → Nat
  | leaf _ _ => 1
  | node _ _ left right => max left.height right.height + 1

@[simp]
theorem addr_leaf (addr : Nat) (data : D) : (leaf addr data).addr = addr :=
  rfl

@[simp]
theorem addr_node (addr : Nat) (data : D) (left right : ArenaTree D) :
    (node addr data left right).addr = addr :=
  rfl

@[simp]
theorem data_leaf (addr : Nat) (data : D) : (leaf addr data).data = data :=
  rfl

@[simp]
theorem data_node (addr : Nat) (data : D) (left right : ArenaTree D) :
    (node addr data left right).data = data :=
  rfl

theorem addr_mem_addrs (tree : ArenaTree D) : tree.addr ∈ tree.addrs := by
  cases tree <;> simp [addr, addrs]

theorem height_le_addrs_length (tree : ArenaTree D) : tree.height ≤ tree.addrs.length := by
  induction tree with
  | leaf => simp [height, addrs]
  | node addr data left right leftBound rightBound =>
      simp only [height, addrs, List.length_cons, List.length_append]
      omega

/-! ## Representation -/

/-- The arena `read` holds exactly the cells of the tree at its addresses. -/
def Stored (read : Nat → Option (Cell D)) : ArenaTree D → Prop
  | leaf addr data => read addr = some (.leaf data)
  | node addr data left right =>
      read addr = some (.internal left.addr right.addr data) ∧
        left.Stored read ∧ right.Stored read

/-- Representation only depends on the addresses of the tree. -/
theorem Stored.congr {read read' : Nat → Option (Cell D)} {tree : ArenaTree D}
    (stored : tree.Stored read) (agree : ∀ addr ∈ tree.addrs, read' addr = read addr) :
    tree.Stored read' := by
  induction tree with
  | leaf addr data =>
      exact (agree addr (by simp [addrs])).trans stored
  | node addr data left right leftIh rightIh =>
      obtain ⟨here, storedLeft, storedRight⟩ := stored
      refine ⟨(agree addr (by simp [addrs])).trans here, leftIh storedLeft ?_,
        rightIh storedRight ?_⟩
      · intro inner member
        exact agree inner (by simp [addrs, member])
      · intro inner member
        exact agree inner (by simp [addrs, member])

theorem Stored.isSome {read : Nat → Option (Cell D)} {tree : ArenaTree D}
    (stored : tree.Stored read) : ∀ addr ∈ tree.addrs, (read addr).isSome := by
  induction tree with
  | leaf addr data =>
      intro other member
      obtain rfl := List.mem_singleton.mp member
      rw [show read other = some (.leaf data) from stored]
      rfl
  | node addr data left right leftIh rightIh =>
      obtain ⟨here, storedLeft, storedRight⟩ := stored
      intro other member
      rcases List.mem_cons.mp member with rfl | member
      · simp [here]
      · rcases List.mem_append.mp member with member | member
        · exact leftIh storedLeft other member
        · exact rightIh storedRight other member

/-! ## Paths -/

/-- One step from a subtree to its parent: the parent's own address and data,
the side of the hole, and the other child. -/
structure Frame (D : Type u) where
  addr : Nat
  data : D
  side : Side
  sibling : ArenaTree D

namespace Frame

/-- Put a subtree into the hole of a frame. -/
def fill (frame : Frame D) (tree : ArenaTree D) : ArenaTree D :=
  match frame.side with
  | .left => node frame.addr frame.data tree frame.sibling
  | .right => node frame.addr frame.data frame.sibling tree

/-- The cell of a frame whose hole is at address `hole`. -/
def cell (frame : Frame D) (hole : Nat) : Cell D :=
  match frame.side with
  | .left => .internal hole frame.sibling.addr frame.data
  | .right => .internal frame.sibling.addr hole frame.data

@[simp]
theorem fill_addr (frame : Frame D) (tree : ArenaTree D) :
    (frame.fill tree).addr = frame.addr := by
  unfold fill
  cases frame.side <;> rfl

@[simp]
theorem fill_data (frame : Frame D) (tree : ArenaTree D) :
    (frame.fill tree).data = frame.data := by
  unfold fill
  cases frame.side <;> rfl

theorem fill_stored_iff (read : Nat → Option (Cell D)) (frame : Frame D) (tree : ArenaTree D) :
    (frame.fill tree).Stored read ↔
      read frame.addr = some (frame.cell tree.addr) ∧ tree.Stored read ∧
        frame.sibling.Stored read := by
  unfold fill cell
  cases frame.side with
  | left => exact Iff.rfl
  | right =>
      simp only [Stored]
      tauto

theorem fill_addrs_perm (frame : Frame D) (tree : ArenaTree D) :
    (frame.fill tree).addrs.Perm (tree.addrs ++ (frame.addr :: frame.sibling.addrs)) := by
  unfold fill
  cases frame.side with
  | left => exact List.perm_middle.symm
  | right => exact (List.perm_append_comm.cons _).trans List.perm_middle.symm

theorem fill_leaves_perm (frame : Frame D) (tree : ArenaTree D) :
    (frame.fill tree).leaves.Perm (tree.leaves ++ frame.sibling.leaves) := by
  unfold fill
  cases frame.side with
  | left => exact List.Perm.refl _
  | right => exact List.perm_append_comm

end Frame

/-- Rebuild the tree around a subtree; the innermost frame comes first. -/
def plug (tree : ArenaTree D) : List (Frame D) → ArenaTree D
  | [] => tree
  | frame :: frames => plug (frame.fill tree) frames

def pathAddrs (frames : List (Frame D)) : List Nat :=
  frames.flatMap fun frame => frame.addr :: frame.sibling.addrs

def pathLeaves (frames : List (Frame D)) : List D :=
  frames.flatMap fun frame => frame.sibling.leaves

/-- The arena holds the cells of a path whose hole is at address `hole`. -/
def StoredPath (read : Nat → Option (Cell D)) : Nat → List (Frame D) → Prop
  | _, [] => True
  | hole, frame :: frames =>
      read frame.addr = some (frame.cell hole) ∧ frame.sibling.Stored read ∧
        StoredPath read frame.addr frames

theorem plug_stored_iff (read : Nat → Option (Cell D)) (tree : ArenaTree D)
    (frames : List (Frame D)) :
    (plug tree frames).Stored read ↔ tree.Stored read ∧ StoredPath read tree.addr frames := by
  induction frames generalizing tree with
  | nil => simp [plug, StoredPath]
  | cons frame frames ih =>
      rw [plug, ih, Frame.fill_stored_iff, Frame.fill_addr, StoredPath]
      tauto

theorem plug_addrs_perm (tree : ArenaTree D) (frames : List (Frame D)) :
    (plug tree frames).addrs.Perm (tree.addrs ++ pathAddrs frames) := by
  induction frames generalizing tree with
  | nil => simp [plug, pathAddrs]
  | cons frame frames ih =>
      refine (ih (frame.fill tree)).trans ?_
      refine ((Frame.fill_addrs_perm frame tree).append_right _).trans ?_
      simp [pathAddrs]

theorem plug_leaves_perm (tree : ArenaTree D) (frames : List (Frame D)) :
    (plug tree frames).leaves.Perm (tree.leaves ++ pathLeaves frames) := by
  induction frames generalizing tree with
  | nil => simp [plug, pathLeaves]
  | cons frame frames ih =>
      refine (ih (frame.fill tree)).trans ?_
      refine ((Frame.fill_leaves_perm frame tree).append_right _).trans ?_
      simp [pathLeaves]

theorem StoredPath.congr {read read' : Nat → Option (Cell D)} {hole : Nat}
    {frames : List (Frame D)} (stored : StoredPath read hole frames)
    (agree : ∀ addr ∈ pathAddrs frames, read' addr = read addr) :
    StoredPath read' hole frames := by
  induction frames generalizing hole with
  | nil => trivial
  | cons frame frames ih =>
      obtain ⟨here, sibling, rest⟩ := stored
      refine ⟨(agree frame.addr (by simp [pathAddrs])).trans here, sibling.congr ?_, ih rest ?_⟩
      · intro addr member
        exact agree addr (by simp [pathAddrs, member])
      · intro addr member
        apply agree addr
        simp only [pathAddrs, List.flatMap_cons, List.mem_append] at member ⊢
        exact Or.inr member

theorem StoredPath.isSome {read : Nat → Option (Cell D)} {hole : Nat}
    {frames : List (Frame D)} (stored : StoredPath read hole frames) :
    ∀ addr ∈ pathAddrs frames, (read addr).isSome := by
  induction frames generalizing hole with
  | nil => simp [pathAddrs]
  | cons frame frames ih =>
      obtain ⟨here, sibling, rest⟩ := stored
      intro addr member
      simp only [pathAddrs, List.flatMap_cons, List.cons_append, List.mem_cons,
        List.mem_append] at member
      rcases member with rfl | member | member
      · simp [here]
      · exact sibling.isSome addr member
      · exact ih rest addr member

/-- The root of a plugged tree is the subtree's root, or the outermost frame. -/
theorem plug_addr (tree : ArenaTree D) (frames : List (Frame D)) :
    (plug tree frames).addr = (frames.getLast?.map Frame.addr).getD tree.addr := by
  induction frames generalizing tree with
  | nil => rfl
  | cons frame frames ih =>
      rw [plug, ih, Frame.fill_addr]
      cases frames with
      | nil => rfl
      | cons next rest => simp [List.getLast?_cons]

/-! ## Summaries -/

/-- Every internal node dominates the roots of its two children. -/
def Summarised (dominates : D → D → Prop) : ArenaTree D → Prop
  | leaf _ _ => True
  | node _ data left right =>
      dominates data left.data ∧ dominates data right.data ∧
        left.Summarised dominates ∧ right.Summarised dominates

/-- The path half of `Summarised`: `hole` is the data at the root of the
subtree that fills the path. -/
def SummarisedPath (dominates : D → D → Prop) : D → List (Frame D) → Prop
  | _, [] => True
  | hole, frame :: frames =>
      dominates frame.data hole ∧ dominates frame.data frame.sibling.data ∧
        frame.sibling.Summarised dominates ∧ SummarisedPath dominates frame.data frames

theorem plug_summarised_iff (dominates : D → D → Prop) (tree : ArenaTree D)
    (frames : List (Frame D)) :
    (plug tree frames).Summarised dominates ↔
      tree.Summarised dominates ∧ SummarisedPath dominates tree.data frames := by
  induction frames generalizing tree with
  | nil => simp [plug, SummarisedPath]
  | cons frame frames ih =>
      rw [plug, ih, Frame.fill_data, SummarisedPath]
      unfold Frame.fill
      cases frame.side <;>
        · simp only [Summarised]
          tauto

/-- A summary at the root dominates every leaf below it. -/
theorem Summarised.dominates_leaf {dominates : D → D → Prop}
    (refl : ∀ data, dominates data data)
    (trans : ∀ {first second third}, dominates first second → dominates second third →
      dominates first third)
    {tree : ArenaTree D} (summarised : tree.Summarised dominates) :
    ∀ leaf ∈ tree.leaves, dominates tree.data leaf := by
  induction tree with
  | leaf addr data =>
      intro leaf member
      obtain rfl := List.mem_singleton.mp member
      exact refl _
  | node addr data left right leftIh rightIh =>
      obtain ⟨overLeft, overRight, inLeft, inRight⟩ := summarised
      intro leaf member
      rcases List.mem_append.mp member with member | member
      · exact trans overLeft (leftIh inLeft leaf member)
      · exact trans overRight (rightIh inRight leaf member)

end ArenaTree

end Gpui.Library
