import Gpui.Geometry
import Gpui.Library.Forest
import Gpui.Library.PartialMap

/-!
# The layout engine

The engine stores a location and a size for each node of a tree, and caches the bounds of
nodes in the window, which are sums of locations along the chain of parents.  Computing the
layout of a node stores new locations and sizes below it.  If it has been computed before, the
cached bounds below it are removed first.

What is stored is decided by Taffy, and is an argument of the computation.
-/

namespace Gpui

open Library

/-- What Taffy stores for a node. -/
structure NodeLayout (K : Type) where
  location : Point K
  size : Size K
deriving DecidableEq

/-- A tree with what is stored for its nodes. -/
structure TaffyTree (K : Type) where
  forest : Forest
  layout : Nat → NodeLayout K

structure TaffyLayoutEngine (K : Type) where
  taffy : TaffyTree K
  absoluteLayoutBounds : PartialMap Nat fun _ => Bounds K
  computedLayouts : Finset Nat

/-- What is asked of the engine.  A computation comes with what it stores. -/
inductive LayoutCall (K : Type) where
  | requestLayout (children : List Nat)
  | computeLayout (id : Nat) (stored : Nat → NodeLayout K)
  | layoutBounds (id : Nat)

namespace TaffyTree

variable {K : Type} [Field K]

def new : TaffyTree K where
  forest := .empty
  layout _ := ⟨⟨0, 0⟩, ⟨0, 0⟩⟩

/-- `new_leaf` and `new_with_children`, which store an empty layout. -/
def newWithChildren (self : TaffyTree K) (children : List Nat)
    (known : ∀ child ∈ children, child < self.forest.size) : TaffyTree K where
  forest := self.forest.add children known
  layout := Function.update self.layout self.forest.size ⟨⟨0, 0⟩, ⟨0, 0⟩⟩

omit [Field K] in
/-- `compute_layout_with_measure`. -/
def computeLayout (self : TaffyTree K) (id : Nat) (stored : Nat → NodeLayout K) : TaffyTree K where
  forest := self.forest
  layout node := if node ∈ self.forest.walk [id] then stored node else self.layout node

/-- The stored location and size of a node in pixels. -/
def bounds (self : TaffyTree K) (scaleFactor : K) (id : Nat) : Bounds K where
  origin := ⟨(self.layout id).location.x / scaleFactor, (self.layout id).location.y / scaleFactor⟩
  size := ⟨(self.layout id).size.width / scaleFactor, (self.layout id).size.height / scaleFactor⟩

/-- The size of a node and the sum of the locations along its chain of parents. -/
def absoluteBounds (self : TaffyTree K) (scaleFactor : K) (id : Nat) : Bounds K where
  origin :=
    ⟨((self.forest.chain id).map fun node => (self.bounds scaleFactor node).origin.x).sum,
      ((self.forest.chain id).map fun node => (self.bounds scaleFactor node).origin.y).sum⟩
  size := (self.bounds scaleFactor id).size

/-- The recursion of `layout_bounds`, which caches the bounds it adds up. -/
def layoutBounds (self : TaffyTree K) (scaleFactor : K)
    (cache : PartialMap Nat fun _ => Bounds K) (id : Nat) :
    Bounds K × PartialMap Nat fun _ => Bounds K :=
  match cache id with
  | some bounds => (bounds, cache)
  | none =>
      let bounds := self.bounds scaleFactor id
      match isParent : self.forest.parent id with
      | some above =>
          have := self.forest.lt_parent isParent
          have := self.forest.parent_lt_size isParent
          let (parentBounds, cache) := self.layoutBounds scaleFactor cache above
          let bounds := { bounds with origin := bounds.origin.add parentBounds.origin }
          (bounds, cache.insert id bounds)
      | none => (bounds, cache.insert id bounds)
termination_by self.forest.size - id

end TaffyTree

namespace TaffyLayoutEngine

variable {K : Type} [Field K]

/-- The engine after `clear`. -/
def new : TaffyLayoutEngine K where
  taffy := .new
  absoluteLayoutBounds := .empty
  computedLayouts := ∅

def requestLayout (self : TaffyLayoutEngine K) (children : List Nat) :
    Option (TaffyLayoutEngine K) :=
  if known : ∀ child ∈ children, child < self.taffy.forest.size then
    some { self with taffy := self.taffy.newWithChildren children known }
  else none

omit [Field K] in
/-- Remove the cached bounds below a node that has been computed before. -/
def invalidate (self : TaffyLayoutEngine K) (id : Nat) : PartialMap Nat fun _ => Bounds K :=
  if id ∈ self.computedLayouts then
    (self.taffy.forest.walk [id]).foldl PartialMap.remove self.absoluteLayoutBounds
  else self.absoluteLayoutBounds

omit [Field K] in
def computeLayout (self : TaffyLayoutEngine K) (id : Nat) (stored : Nat → NodeLayout K) :
    Option (TaffyLayoutEngine K) :=
  if id < self.taffy.forest.size then
    some
      { taffy := self.taffy.computeLayout id stored
        absoluteLayoutBounds := self.invalidate id
        computedLayouts := insert id self.computedLayouts }
  else none

def layoutBounds (self : TaffyLayoutEngine K) (scaleFactor : K) (id : Nat) :
    Option (Bounds K × TaffyLayoutEngine K) :=
  if (self.absoluteLayoutBounds id).isSome ∨ id < self.taffy.forest.size then
    let (bounds, cache) := self.taffy.layoutBounds scaleFactor self.absoluteLayoutBounds id
    some (bounds, { self with absoluteLayoutBounds := cache })
  else none

def step (scaleFactor : K) (self : TaffyLayoutEngine K) :
    LayoutCall K → Option (TaffyLayoutEngine K)
  | .requestLayout children => self.requestLayout children
  | .computeLayout id stored => self.computeLayout id stored
  | .layoutBounds id => (self.layoutBounds scaleFactor id).map Prod.snd

/-- Calls after a `clear`. -/
def run (scaleFactor : K) (calls : List (LayoutCall K)) : Option (TaffyLayoutEngine K) :=
  calls.foldlM (step scaleFactor) new

/-- `layout_bounds` returns the latest bounds of each node. -/
def Answers (scaleFactor : K) (self : TaffyLayoutEngine K) : Prop :=
  ∀ id answer, self.layoutBounds scaleFactor id = some answer →
    answer.1 = self.taffy.absoluteBounds scaleFactor id

/-- The bounds of a node are cached, and others in a later tree. -/
def CachedMoves (scaleFactor : K) (self : TaffyLayoutEngine K) (later : TaffyTree K) (id : Nat) :
    Prop :=
  (self.absoluteLayoutBounds id).isSome = true ∧
    later.absoluteBounds scaleFactor id ≠ self.taffy.absoluteBounds scaleFactor id

/-- A call moves a node whose bounds stay cached: it computes a node above for the first time,
or gives a node above that has a parent another one. -/
def MovesCached (scaleFactor : K) (self : TaffyLayoutEngine K) : LayoutCall K → Prop
  | .requestLayout children =>
      ∃ known : ∀ child ∈ children, child < self.taffy.forest.size,
        ∃ child ∈ children, (self.taffy.forest.parent child).isSome = true ∧
          ∃ id, child ∈ self.taffy.forest.chain id ∧
            self.CachedMoves scaleFactor (self.taffy.newWithChildren children known) id
  | .computeLayout root stored =>
      root ∉ self.computedLayouts ∧ ∃ id ∈ self.taffy.forest.walk [root],
        self.CachedMoves scaleFactor (self.taffy.computeLayout root stored) id
  | .layoutBounds _ => False

end TaffyLayoutEngine

variable {K : Type} [Field K] {scaleFactor : K}

/-! ## Bounds along the chain of parents -/

namespace TaffyTree

theorem absoluteBounds_of_root (scaleFactor : K) {self : TaffyTree K} {id : Nat}
    (isRoot : self.forest.parent id = none) :
    self.absoluteBounds scaleFactor id = self.bounds scaleFactor id := by
  simp [absoluteBounds, Forest.chain_of_root isRoot]

theorem absoluteBounds_of_parent (scaleFactor : K) {self : TaffyTree K} {id above : Nat}
    (isParent : self.forest.parent id = some above) :
    self.absoluteBounds scaleFactor id =
      { self.bounds scaleFactor id with
        origin := (self.bounds scaleFactor id).origin.add
          (self.absoluteBounds scaleFactor above).origin } := by
  simp [absoluteBounds, Forest.chain_of_parent isParent, Point.add]

/-- The cached bounds are the latest ones. -/
def Latest (scaleFactor : K) (self : TaffyTree K) (cache : PartialMap Nat fun _ => Bounds K) :
    Prop :=
  ∀ id bounds, cache id = some bounds → bounds = self.absoluteBounds scaleFactor id

/-- From bounds that are the latest `layout_bounds` returns and caches such. -/
theorem layoutBounds_latest {self : TaffyTree K} {cache : PartialMap Nat fun _ => Bounds K}
    (latest : self.Latest scaleFactor cache) (id : Nat) :
    (self.layoutBounds scaleFactor cache id).1 = self.absoluteBounds scaleFactor id ∧
      self.Latest scaleFactor (self.layoutBounds scaleFactor cache id).2 := by
  induction id using self.forest.induction_up with
  | root id isRoot =>
      rw [layoutBounds]
      split
      next bounds isCached => exact ⟨latest id bounds isCached, latest⟩
      next =>
        split
        next above isParent =>
          rw [isRoot] at isParent
          cases isParent
        next =>
          have isBounds := absoluteBounds_of_root scaleFactor isRoot
          exact ⟨isBounds.symm, PartialMap.forall_insert latest isBounds.symm⟩
  | node id next isParent ih =>
      rw [layoutBounds]
      split
      next bounds isCached => exact ⟨latest id bounds isCached, latest⟩
      next =>
        split
        next above isAbove =>
          rcases Option.some.inj (isParent.symm.trans isAbove) with rfl
          have isBounds := absoluteBounds_of_parent scaleFactor isParent
          rw [← ih.1] at isBounds
          exact ⟨isBounds.symm, PartialMap.forall_insert ih.2 isBounds.symm⟩
        next isRoot =>
          rw [isRoot] at isParent
          cases isParent

/-- `layout_bounds` caches the bounds of nodes that there are. -/
theorem layoutBounds_known {self : TaffyTree K} {cache : PartialMap Nat fun _ => Bounds K}
    (known : ∀ id bounds, cache id = some bounds → id < self.forest.size) (id : Nat)
    (isKnown : id < self.forest.size) :
    ∀ node bounds, (self.layoutBounds scaleFactor cache id).2 node = some bounds →
      node < self.forest.size := by
  induction id using self.forest.induction_up with
  | root id isRoot =>
      rw [layoutBounds]
      split
      next => exact known
      next =>
        split
        next above isParent =>
          rw [isRoot] at isParent
          cases isParent
        next => exact PartialMap.forall_insert known isKnown
  | node id next isParent ih =>
      rw [layoutBounds]
      split
      next => exact known
      next =>
        split
        next above isAbove =>
          rcases Option.some.inj (isParent.symm.trans isAbove) with rfl
          have later := ih (self.forest.parent_lt_size isParent)
          exact PartialMap.forall_insert later isKnown
        next isRoot =>
          rw [isRoot] at isParent
          cases isParent

theorem layoutBounds_caches (self : TaffyTree K) (cache : PartialMap Nat fun _ => Bounds K)
    (id : Nat) :
    (self.layoutBounds scaleFactor cache id).2 id =
      some (self.layoutBounds scaleFactor cache id).1 := by
  rw [layoutBounds]
  split
  next bounds isCached => exact isCached
  next =>
    split
    next => exact PartialMap.insert_self ..
    next => exact PartialMap.insert_self ..

/-- Cached bounds are what `layout_bounds` returns. -/
theorem layoutBounds_of_cached {self : TaffyTree K} {cache : PartialMap Nat fun _ => Bounds K}
    {id : Nat} {bounds : Bounds K} (isCached : cache id = some bounds) :
    self.layoutBounds scaleFactor cache id = (bounds, cache) := by
  rw [layoutBounds]
  split
  next other isOther =>
    rcases Option.some.inj (isCached.symm.trans isOther) with rfl
    rfl
  next isNone =>
    rw [isCached] at isNone
    cases isNone

/-- Only nodes below the computed one move. -/
theorem absoluteBounds_computeLayout {self : TaffyTree K} {root id : Nat}
    (stored : Nat → NodeLayout K) (outside : id ∉ self.forest.walk [root]) :
    (self.computeLayout root stored).absoluteBounds scaleFactor id =
      self.absoluteBounds scaleFactor id := by
  have same : ∀ node ∈ self.forest.chain id,
      (self.computeLayout root stored).bounds scaleFactor node =
        self.bounds scaleFactor node := by
    intro node member
    have notBelow : node ∉ self.forest.walk [root] := by
      intro isBelow
      apply outside
      rw [Forest.mem_walk_singleton] at isBelow ⊢
      exact isBelow.trans (Forest.below_of_mem_chain member)
    simp only [bounds, computeLayout]
    rw [if_neg notBelow]
  have origins : ∀ coordinate : Point K → K,
      ((self.forest.chain id).map fun node =>
        coordinate ((self.computeLayout root stored).bounds scaleFactor node).origin) =
      (self.forest.chain id).map fun node =>
        coordinate (self.bounds scaleFactor node).origin := by
    intro coordinate
    apply List.map_congr_left
    intro node member
    rw [same node member]
  have size := same id (self.forest.self_mem_chain id)
  simp only [absoluteBounds]
  rw [size]
  exact congrArg₂ (fun x y => Bounds.mk (Point.mk x y) (self.bounds scaleFactor id).size)
    (congrArg List.sum (origins Point.x)) (congrArg List.sum (origins Point.y))

/-- A new node has no place of its own, so only nodes move that lose a parent. -/
theorem absoluteBounds_newWithChildren {self : TaffyTree K} {children : List Nat}
    (known : ∀ child ∈ children, child < self.forest.size) {id : Nat}
    (isKnown : id < self.forest.size)
    (roots : ∀ child ∈ children, child ∈ self.forest.chain id →
      self.forest.parent child = none) :
    (self.newWithChildren children known).absoluteBounds scaleFactor id =
      self.absoluteBounds scaleFactor id := by
  have sameBounds : ∀ node < self.forest.size,
      (self.newWithChildren children known).bounds scaleFactor node =
        self.bounds scaleFactor node := by
    intro node isNode
    simp only [bounds, newWithChildren]
    rw [Function.update_of_ne (by omega)]
  induction id using self.forest.induction_up with
  | root id isRoot =>
      rw [absoluteBounds_of_root scaleFactor isRoot]
      by_cases isChild : id ∈ children
      · have given : (self.newWithChildren children known).forest.parent id =
            some self.forest.size := by
          simp only [newWithChildren, Forest.add]
          rw [if_pos isChild]
        have newRoot : (self.newWithChildren children known).forest.parent self.forest.size =
            none := by
          simp only [newWithChildren, Forest.add]
          rw [if_neg fun member => absurd (known _ member) (lt_irrefl _)]
          exact self.forest.parent_size
        have atOrigin : (self.newWithChildren children known).bounds scaleFactor
            self.forest.size = ⟨⟨0, 0⟩, ⟨0, 0⟩⟩ := by
          simp [bounds, newWithChildren]
        rw [absoluteBounds_of_parent scaleFactor given, absoluteBounds_of_root scaleFactor newRoot,
          atOrigin, sameBounds id isKnown]
        simp [Point.add]
      · have stays : (self.newWithChildren children known).forest.parent id = none := by
          simp only [newWithChildren, Forest.add]
          rw [if_neg isChild, isRoot]
        rw [absoluteBounds_of_root scaleFactor stays, sameBounds id isKnown]
  | node id above isParent ih =>
      rw [Forest.chain_of_parent isParent] at roots
      have notChild : id ∉ children := by
        intro isChild
        have isRoot := roots id isChild List.mem_cons_self
        rw [isParent] at isRoot
        cases isRoot
      have stays : (self.newWithChildren children known).forest.parent id = some above := by
        simp only [newWithChildren, Forest.add]
        rw [if_neg notChild, isParent]
      have isSame := ih (self.forest.parent_lt_size isParent) fun child member inChain =>
        roots child member (List.mem_cons_of_mem _ inChain)
      rw [absoluteBounds_of_parent scaleFactor stays,
        absoluteBounds_of_parent scaleFactor isParent, isSame, sameBounds id isKnown]

end TaffyTree

/-! ## Calls -/

namespace TaffyLayoutEngine

/-- Bounds are cached of nodes that there are. -/
def CachedKnown (self : TaffyLayoutEngine K) : Prop :=
  ∀ id bounds, self.absoluteLayoutBounds id = some bounds → id < self.taffy.forest.size

theorem answers_iff {self : TaffyLayoutEngine K} :
    self.Answers scaleFactor ↔ self.taffy.Latest scaleFactor self.absoluteLayoutBounds := by
  constructor
  · intro answers id bounds isCached
    have returned : self.layoutBounds scaleFactor id = some (bounds, self) := by
      rw [layoutBounds, if_pos (.inl (by rw [isCached]; rfl)),
        TaffyTree.layoutBounds_of_cached isCached]
    exact answers id _ returned
  · intro latest id answer returned
    rw [layoutBounds] at returned
    split at returned
    · rcases Option.some.inj returned with rfl
      exact (TaffyTree.layoutBounds_latest latest id).1
    · cases returned

theorem requestLayout_eq_some {self next : TaffyLayoutEngine K} {children : List Nat}
    (requested : self.requestLayout children = some next) :
    ∃ known : ∀ child ∈ children, child < self.taffy.forest.size,
      next = { self with taffy := self.taffy.newWithChildren children known } := by
  rw [requestLayout] at requested
  split at requested
  next known => exact ⟨known, (Option.some.inj requested).symm⟩
  next => cases requested

omit [Field K] in
theorem computeLayout_eq_some {self next : TaffyLayoutEngine K} {id : Nat}
    {stored : Nat → NodeLayout K} (computed : self.computeLayout id stored = some next) :
    next =
      { taffy := self.taffy.computeLayout id stored
        absoluteLayoutBounds := self.invalidate id
        computedLayouts := insert id self.computedLayouts } := by
  rw [computeLayout] at computed
  split at computed
  · exact (Option.some.inj computed).symm
  · cases computed

theorem layoutBounds_eq_some {self next : TaffyLayoutEngine K} {id : Nat} {bounds : Bounds K}
    (returned : self.layoutBounds scaleFactor id = some (bounds, next)) :
    ((self.absoluteLayoutBounds id).isSome = true ∨ id < self.taffy.forest.size) ∧
      next =
        { self with
          absoluteLayoutBounds :=
            (self.taffy.layoutBounds scaleFactor self.absoluteLayoutBounds id).2 } := by
  rw [layoutBounds] at returned
  split at returned
  next known =>
    rcases Prod.mk.inj (Option.some.inj returned) with ⟨-, rfl⟩
    exact ⟨known, rfl⟩
  next => cases returned

omit [Field K] in
theorem invalidate_eq_some {self : TaffyLayoutEngine K} {root id : Nat} {bounds : Bounds K}
    (isCached : self.invalidate root id = some bounds) :
    self.absoluteLayoutBounds id = some bounds := by
  rw [invalidate] at isCached
  split at isCached
  · exact ((PartialMap.foldl_remove_eq_some_iff _ _ _ _).mp isCached).2
  · exact isCached

theorem cachedKnown_step {self next : TaffyLayoutEngine K} {call : LayoutCall K}
    (known : self.CachedKnown) (steps : self.step scaleFactor call = some next) :
    next.CachedKnown := by
  cases call with
  | requestLayout children =>
      rcases requestLayout_eq_some steps with ⟨-, rfl⟩
      intro id bounds isCached
      exact Nat.lt_succ_of_lt (known id bounds isCached)
  | computeLayout root stored =>
      rcases computeLayout_eq_some steps with rfl
      intro id bounds isCached
      exact known id bounds (invalidate_eq_some isCached)
  | layoutBounds id =>
      rcases Option.map_eq_some_iff.mp steps with ⟨⟨bounds, _⟩, returned, rfl⟩
      rcases layoutBounds_eq_some returned with ⟨isKnown, rfl⟩
      have idKnown : id < self.taffy.forest.size := by
        rcases isKnown with isCached | isKnown
        · rcases Option.isSome_iff_exists.mp isCached with ⟨cached, isCached⟩
          exact known id cached isCached
        · exact isKnown
      exact TaffyTree.layoutBounds_known known id idKnown

/-- Bounds that stay cached stay the latest if and only if none of them moves. -/
theorem latest_iff {cache : PartialMap Nat fun _ => Bounds K} {before after : TaffyTree K}
    (latest : before.Latest scaleFactor cache) :
    after.Latest scaleFactor cache ↔
      ∀ id, (cache id).isSome = true →
        after.absoluteBounds scaleFactor id = before.absoluteBounds scaleFactor id := by
  constructor
  · intro stays id isCached
    rcases Option.isSome_iff_exists.mp isCached with ⟨bounds, isCached⟩
    rw [← stays id bounds isCached, ← latest id bounds isCached]
  · intro stays id bounds isCached
    rw [stays id (by rw [isCached]; rfl)]
    exact latest id bounds isCached

theorem latest_step_iff {self next : TaffyLayoutEngine K} {call : LayoutCall K}
    (known : self.CachedKnown)
    (latest : self.taffy.Latest scaleFactor self.absoluteLayoutBounds)
    (steps : self.step scaleFactor call = some next) :
    next.taffy.Latest scaleFactor next.absoluteLayoutBounds ↔
      ¬ self.MovesCached scaleFactor call := by
  cases call with
  | requestLayout children =>
      rcases requestLayout_eq_some steps with ⟨areKnown, rfl⟩
      simp only
      rw [latest_iff latest]
      constructor
      · rintro stays ⟨_, child, -, -, id, -, isCached, moves⟩
        exact moves (stays id isCached)
      · intro still id isCached
        by_contra moves
        rcases Option.isSome_iff_exists.mp isCached with ⟨bounds, found⟩
        apply moves
        apply TaffyTree.absoluteBounds_newWithChildren areKnown (known id bounds found)
        intro child member inChain
        by_contra hasParent
        exact still ⟨areKnown, child, member, Option.isSome_iff_ne_none.mpr hasParent, id,
          inChain, isCached, moves⟩
  | computeLayout root stored =>
      rcases computeLayout_eq_some steps with rfl
      by_cases seen : root ∈ self.computedLayouts
      · have still : ¬ self.MovesCached scaleFactor (.computeLayout root stored) :=
          fun moves => moves.1 seen
        refine iff_of_true ?_ still
        intro id bounds isCached
        simp only [invalidate] at isCached
        rw [if_pos seen, PartialMap.foldl_remove_eq_some_iff] at isCached
        rw [TaffyTree.absoluteBounds_computeLayout stored isCached.1]
        exact latest id bounds isCached.2
      · simp only [invalidate]
        rw [if_neg seen, latest_iff latest]
        constructor
        · rintro stays ⟨-, id, -, isCached, moves⟩
          exact moves (stays id isCached)
        · intro still id isCached
          by_contra moves
          apply moves
          apply TaffyTree.absoluteBounds_computeLayout stored
          intro isBelow
          exact still ⟨seen, id, isBelow, isCached, moves⟩
  | layoutBounds id =>
      rcases Option.map_eq_some_iff.mp steps with ⟨⟨bounds, _⟩, returned, rfl⟩
      rcases layoutBounds_eq_some returned with ⟨-, rfl⟩
      exact iff_of_true (TaffyTree.layoutBounds_latest latest id).2 not_false

/-! ## Runs -/

theorem run_snoc {calls : List (LayoutCall K)} {call : LayoutCall K}
    {last : TaffyLayoutEngine K} :
    run scaleFactor (calls ++ [call]) = some last ↔
      ∃ engine, run scaleFactor calls = some engine ∧
        engine.step scaleFactor call = some last := by
  simp only [run, List.foldlM_append, List.foldlM_cons, List.foldlM_nil, bind_pure]
  exact Option.bind_eq_some_iff

theorem cachedKnown_run {calls : List (LayoutCall K)} {engine : TaffyLayoutEngine K}
    (ran : run scaleFactor calls = some engine) : engine.CachedKnown := by
  induction calls using List.reverseRecOn generalizing engine with
  | nil =>
      rcases Option.some.inj ran with rfl
      intro id bounds isCached
      cases isCached
  | append_singleton calls call ih =>
      rcases run_snoc.1 ran with ⟨before, ranBefore, steps⟩
      exact cachedKnown_step (ih ranBefore) steps

/-- `layout_bounds` returns the latest bounds of every node after each call if and only if no
call moves a node whose bounds stay cached. -/
theorem answers_run_iff (calls : List (LayoutCall K)) :
    (∀ before after engine, calls = before ++ after → run scaleFactor before = some engine →
      engine.Answers scaleFactor) ↔
    ∀ before call after engine next, calls = before ++ call :: after →
      run scaleFactor before = some engine → engine.step scaleFactor call = some next →
        ¬ engine.MovesCached scaleFactor call := by
  constructor
  · intro answers before call after engine next split ran steps
    have latest := answers_iff.1 (answers before (call :: after) engine split ran)
    apply (latest_step_iff (cachedKnown_run ran) latest steps).mp
    apply answers_iff.1
    apply answers (before ++ [call]) after next
    · rw [split, List.append_assoc]
      rfl
    · exact run_snoc.2 ⟨engine, ran, steps⟩
  · intro still before after engine split ran
    apply answers_iff.2
    induction before using List.reverseRecOn generalizing after engine with
    | nil =>
        rcases Option.some.inj ran with rfl
        intro id bounds isCached
        cases isCached
    | append_singleton before call ih =>
        rcases run_snoc.1 ran with ⟨middle, ranMiddle, steps⟩
        have divided : calls = before ++ call :: after := by
          rw [split, List.append_assoc]
          rfl
        have latest := ih (call :: after) middle divided ranMiddle
        apply (latest_step_iff (cachedKnown_run ranMiddle) latest steps).mpr
        exact still before call after middle engine divided ranMiddle steps

/-- A node is computed as a root and asked for its bounds, and is then laid out by a parent. -/
theorem not_answers_run :
    ¬ ∀ calls : List (LayoutCall ℚ), ∀ before after engine, calls = before ++ after →
      run 1 before = some engine → engine.Answers 1 := by
  intro answers
  let alone : TaffyTree ℚ :=
    (TaffyTree.new.newWithChildren [] (by simp)).computeLayout 0 fun _ => ⟨⟨0, 0⟩, ⟨8, 8⟩⟩
  let inParent : TaffyTree ℚ := alone.newWithChildren [0] (by simp [alone]; decide)
  let engine : TaffyLayoutEngine ℚ := ⟨inParent, (alone.layoutBounds 1 .empty 0).2, {0}⟩
  let calls : List (LayoutCall ℚ) :=
    [.requestLayout [], .computeLayout 0 fun _ => ⟨⟨0, 0⟩, ⟨8, 8⟩⟩, .layoutBounds 0,
      .requestLayout [0]]
  have ran : run 1 calls = some engine := rfl
  let moved : TaffyTree ℚ := inParent.computeLayout 1 fun _ => ⟨⟨5, 5⟩, ⟨8, 8⟩⟩
  let last : TaffyLayoutEngine ℚ := ⟨moved, engine.absoluteLayoutBounds, {1, 0}⟩
  let allCalls := calls ++ [.computeLayout 1 fun _ => ⟨⟨5, 5⟩, ⟨8, 8⟩⟩]
  have ranLast : run 1 allCalls = some last := rfl
  have isCached : engine.absoluteLayoutBounds 0 = some (alone.layoutBounds 1 .empty 0).1 :=
    TaffyTree.layoutBounds_caches alone .empty 0
  have latest := answers_iff.1 (answers calls calls [] engine rfl ran)
  have latestLast := answers_iff.1 (answers allCalls allCalls [] last rfl ranLast)
  have same : moved.absoluteBounds 1 0 = inParent.absoluteBounds 1 0 :=
    (latestLast 0 _ isCached).symm.trans (latest 0 _ isCached)
  have child : moved.forest.parent 0 = some 1 := rfl
  have root : moved.forest.parent 1 = none := rfl
  have below (node : Nat) (isBelow : inParent.forest.Below 1 node) :
      moved.bounds 1 node = ⟨⟨5, 5⟩, ⟨8, 8⟩⟩ := by
    have inWalk := Forest.mem_walk_singleton.mpr isBelow
    simp [moved, TaffyTree.bounds, TaffyTree.computeLayout, inWalk]
  have belowChild : inParent.forest.Below 1 0 :=
    .single (inParent.forest.mem_children child)
  have isMoved := TaffyTree.absoluteBounds_of_parent 1 child
  rw [TaffyTree.absoluteBounds_of_root 1 root, below 0 belowChild, below 1 .refl] at isMoved
  have aloneRoot : alone.forest.parent 0 = none := rfl
  have isAlone : inParent.absoluteBounds 1 0 = alone.bounds 1 0 := by
    rw [← TaffyTree.absoluteBounds_of_root 1 aloneRoot]
    apply TaffyTree.absoluteBounds_newWithChildren
    · exact Nat.one_pos
    · intro node isNode _
      rcases List.mem_singleton.mp isNode with rfl
      exact aloneRoot
  have inWalk : 0 ∈ (TaffyTree.new.newWithChildren [] (by simp) : TaffyTree ℚ).forest.walk [0] :=
    Forest.mem_walk_singleton.mpr .refl
  have atOrigin : alone.bounds 1 0 = ⟨⟨0, 0⟩, ⟨8, 8⟩⟩ := by
    simp [alone, TaffyTree.bounds, TaffyTree.computeLayout, inWalk]
  have isLeft := congrArg (fun bounds => bounds.origin.x) (same.trans (isAlone.trans atOrigin))
  rw [isMoved] at isLeft
  norm_num [Point.add] at isLeft

end TaffyLayoutEngine

end Gpui
