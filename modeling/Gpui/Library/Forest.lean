import Mathlib

/-!
# Forests in an arena

Nodes are numbered in the order in which they are made.  A node is made with its children,
which have been made before and get it as their parent.  A node that has a parent may be given
to another, which is its parent then; both have it among their children.

The chain of parents of a node goes up in the arena, and the walk below a node goes down.
-/

namespace Gpui.Library

structure Forest where
  size : Nat
  children : Nat → List Nat
  parent : Nat → Option Nat
  child_lt : ∀ {id child}, child ∈ children id → child < id
  lt_size : ∀ {id child}, child ∈ children id → id < size
  mem_children : ∀ {id above}, parent id = some above → id ∈ children above

namespace Forest

def empty : Forest where
  size := 0
  children _ := []
  parent _ := none
  child_lt := by simp
  lt_size := by simp
  mem_children := by simp

theorem lt_parent (self : Forest) {id above : Nat} (isParent : self.parent id = some above) :
    id < above :=
  self.child_lt (self.mem_children isParent)

theorem parent_lt_size (self : Forest) {id above : Nat} (isParent : self.parent id = some above) :
    above < self.size :=
  self.lt_size (self.mem_children isParent)

theorem parent_size (self : Forest) : self.parent self.size = none := by
  cases isParent : self.parent self.size with
  | none => rfl
  | some above =>
      have := self.lt_parent isParent
      have := self.parent_lt_size isParent
      omega

/-- Make a node with children that there are. -/
def add (self : Forest) (nodes : List Nat) (known : ∀ node ∈ nodes, node < self.size) :
    Forest where
  size := self.size + 1
  children := Function.update self.children self.size nodes
  parent id := if id ∈ nodes then some self.size else self.parent id
  child_lt := by
    intro id child member
    by_cases isNew : id = self.size
    · rcases isNew with rfl
      rw [Function.update_self] at member
      exact known child member
    · rw [Function.update_of_ne isNew] at member
      exact self.child_lt member
  lt_size := by
    intro id child member
    by_cases isNew : id = self.size
    · omega
    · rw [Function.update_of_ne isNew] at member
      have := self.lt_size member
      omega
  mem_children := by
    intro id above isParent
    by_cases given : id ∈ nodes
    · rw [if_pos given] at isParent
      rcases Option.some.inj isParent with rfl
      rw [Function.update_self]
      exact given
    · rw [if_neg given] at isParent
      have isOld := self.parent_lt_size isParent
      rw [Function.update_of_ne (by omega)]
      exact self.mem_children isParent

/-! ## The chain of parents -/

/-- A node, its parent, the parent of that and so on. -/
def chain (self : Forest) (id : Nat) : List Nat :=
  match isParent : self.parent id with
  | none => [id]
  | some above =>
      have := self.lt_parent isParent
      have := self.parent_lt_size isParent
      id :: self.chain above
termination_by self.size - id

theorem chain_of_root {self : Forest} {id : Nat} (isRoot : self.parent id = none) :
    self.chain id = [id] := by
  rw [chain]
  split
  next => rfl
  next above isParent =>
    rw [isRoot] at isParent
    cases isParent

theorem chain_of_parent {self : Forest} {id above : Nat}
    (isParent : self.parent id = some above) : self.chain id = id :: self.chain above := by
  rw [chain]
  split
  next isRoot =>
    rw [isRoot] at isParent
    cases isParent
  next other isOther =>
    rw [isParent] at isOther
    rcases Option.some.inj isOther with rfl
    rfl

/-- What holds of a node if it holds of its parent holds of all nodes. -/
theorem induction_up (self : Forest) {property : Nat → Prop}
    (root : ∀ id, self.parent id = none → property id)
    (node : ∀ id above, self.parent id = some above → property above → property id) :
    ∀ id, property id := by
  intro id
  induction id using chain.induct self with
  | case1 id isRoot => exact root id isRoot
  | case2 id above isParent _ _ ih => exact node id above isParent ih

theorem self_mem_chain (self : Forest) (id : Nat) : id ∈ self.chain id := by
  cases isParent : self.parent id with
  | none =>
      rw [chain_of_root isParent]
      exact List.mem_singleton_self id
  | some above =>
      rw [chain_of_parent isParent]
      exact List.mem_cons_self

/-! ## The walk below a node -/

/-- The second node is reached from the first by going to children. -/
def Below (self : Forest) : Nat → Nat → Prop :=
  Relation.ReflTransGen fun above id => id ∈ self.children above

theorem below_of_mem_chain {self : Forest} {id above : Nat} (member : above ∈ self.chain id) :
    self.Below above id := by
  induction id using self.induction_up with
  | root id isRoot =>
      rw [chain_of_root isRoot] at member
      rcases List.mem_singleton.mp member with rfl
      exact .refl
  | node id next isParent ih =>
      rw [chain_of_parent isParent] at member
      rcases List.mem_cons.mp member with rfl | member
      · exact .refl
      · exact (ih member).tail (self.mem_children isParent)

/-- How many steps a walk below a node takes. -/
def weight (self : Forest) (id : Nat) : Nat :=
  1 + ((self.children id).attach.map fun child => self.weight child.1).sum
termination_by id
decreasing_by exact self.child_lt child.2

theorem weight_eq (self : Forest) (id : Nat) :
    self.weight id = 1 + ((self.children id).map self.weight).sum := by
  rw [weight, List.attach_map_val]

/-- The nodes that are popped off a stack, onto which the children of each are pushed. -/
def walk (self : Forest) : List Nat → List Nat
  | [] => []
  | id :: stack => id :: self.walk ((self.children id).reverse ++ stack)
termination_by stack => (stack.map self.weight).sum
decreasing_by
  have := self.weight_eq id
  simp
  omega

theorem mem_walk_iff {self : Forest} {stack : List Nat} {node : Nat} :
    node ∈ self.walk stack ↔ ∃ id ∈ stack, self.Below id node := by
  induction stack using walk.induct self with
  | case1 => simp [walk]
  | case2 id stack ih =>
      simp only [List.unattach_reverse, List.unattach_attach] at ih
      rw [walk, List.mem_cons, ih]
      constructor
      · rintro (rfl | ⟨child, member, below⟩)
        · exact ⟨node, List.mem_cons_self, .refl⟩
        · rcases List.mem_append.mp member with isChild | member
          · have isChild := List.mem_reverse.mp isChild
            exact ⟨id, List.mem_cons_self, .head isChild below⟩
          · exact ⟨child, List.mem_cons_of_mem _ member, below⟩
      · rintro ⟨root, member, below⟩
        rcases List.mem_cons.mp member with rfl | member
        · rcases Relation.ReflTransGen.cases_head below with rfl | ⟨child, isChild, below⟩
          · exact .inl rfl
          · exact .inr ⟨child, List.mem_append_left _ (List.mem_reverse.mpr isChild), below⟩
        · exact .inr ⟨root, List.mem_append_right _ member, below⟩

theorem mem_walk_singleton {self : Forest} {id node : Nat} :
    node ∈ self.walk [id] ↔ self.Below id node := by
  rw [mem_walk_iff]
  simp

end Forest

end Gpui.Library
