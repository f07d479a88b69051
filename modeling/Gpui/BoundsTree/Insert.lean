import Gpui.BoundsTree.Representation

/-!
# Insertion keeps the representation

The descent of `insert` walks from the root to a leaf.  Its invariant `Walking`
keeps the whole tree in view as a subtree plugged into a path whose summaries
have already absorbed the new bounds, and remembers that the order found so far
is exact for everything beside the path.  At the leaf the new node is attached
and the path's cached orders are raised from the bottom up.
-/

namespace Gpui.BoundsTree

open Gpui.Library
open Gpui.Library.ArenaTree

variable {K : Type} [Field K] [LinearOrder K]

/-! ## The descent -/

/-- The invariant of the descent at the subtree `subtree` under the path
`frames`. -/
structure Walking (newBounds : Bounds K) (nodes : List (Node K)) (stack : List Nat)
    (maxOrdering : DrawOrder) (subtree : ArenaTree (Entry K))
    (frames : List (Frame (Entry K))) : Prop where
  stored : subtree.Stored (readNodes nodes)
  storedPath : StoredPath (readNodes nodes) subtree.addr frames
  distinct : (subtree.addrs ++ pathAddrs frames).Nodup
  summarised : subtree.Summarised Dominates
  summarisedPath : SummarisedPath Dominates subtree.data frames
  absorbed : ∀ frame ∈ frames, frame.data.1.Covers newBounds
  stack_eq : stack = (frames.map Frame.addr).reverse
  maxOrdering_eq : maxOrdering = overlapMax newBounds (pathLeaves frames)

/-- The data of a visited node after it has absorbed the new bounds. -/
def absorb (newBounds : Bounds K) (entry : Entry K) : Entry K :=
  (entry.1.union newBounds, entry.2)

theorem absorb_dominates {newBounds : Bounds K} {entry child : Entry K}
    (dominated : Dominates entry child) : Dominates (absorb newBounds entry) child :=
  ⟨(Bounds.union_covers_left _ _).trans dominated.1, dominated.2⟩

/-- A path that has absorbed the new bounds still dominates its hole after the
hole absorbs them. -/
theorem summarisedPath_absorb {newBounds : Bounds K} {hole : Entry K}
    {frames : List (Frame (Entry K))} (summarised : SummarisedPath Dominates hole frames)
    (absorbed : ∀ frame ∈ frames, frame.data.1.Covers newBounds) :
    SummarisedPath Dominates (absorb newBounds hole) frames := by
  cases frames with
  | nil => trivial
  | cons frame frames =>
      obtain ⟨overHole, rest⟩ := summarised
      have covers := absorbed frame List.mem_cons_self
      exact ⟨⟨Bounds.union_covered overHole.1 covers, overHole.2⟩, rest⟩

/-- Updating the root of the walked subtree changes no other cell of the
represented tree. -/
theorem stored_absorb {nodes : List (Node K)} (newBounds : Bounds K) {addr : Nat}
    {entry : Entry K} {left right : ArenaTree (Entry K)} {frames : List (Frame (Entry K))}
    (stored : (node addr entry left right).Stored (readNodes nodes))
    (storedPath : StoredPath (readNodes nodes) addr frames)
    (distinct : ((node addr entry left right).addrs ++ pathAddrs frames).Nodup) :
    let nodes' := nodes.set addr
      (.internal left.addr right.addr (entry.1.union newBounds) entry.2)
    (node addr (absorb newBounds entry) left right).Stored (readNodes nodes') ∧
      StoredPath (readNodes nodes') addr frames := by
  obtain ⟨here, storedLeft, storedRight⟩ := stored
  simp only [addrs, List.cons_append, List.nodup_cons, List.mem_append, not_or] at distinct
  obtain ⟨⟨⟨notLeft, notRight⟩, notPath⟩, -⟩ := distinct
  refine ⟨⟨readNodes_set_self _ (by simp [here]), storedLeft.congr ?_, storedRight.congr ?_⟩,
    storedPath.congr ?_⟩
  · intro other member
    exact readNodes_set_ne _ fun equal => notLeft (equal ▸ member)
  · intro other member
    exact readNodes_set_ne _ fun equal => notRight (equal ▸ member)
  · intro other member
    exact readNodes_set_ne _ fun equal => notPath (equal ▸ member)

/-- Entering the child on one side turns the visited node into a frame and
accounts for everything below the other child. -/
theorem Walking.enter {newBounds : Bounds K} {nodes : List (Node K)} {stack : List Nat}
    {maxOrdering : DrawOrder} {addr : Nat} {entry : Entry K} {left right : ArenaTree (Entry K)}
    {frames : List (Frame (Entry K))}
    (walking : Walking newBounds nodes stack maxOrdering (node addr entry left right) frames)
    (side : Side) :
    let nodes' := nodes.set addr
      (.internal left.addr right.addr (entry.1.union newBounds) entry.2)
    let child := match side with | .left => left | .right => right
    let sibling := match side with | .left => right | .right => left
    Walking newBounds nodes' (stack ++ [addr])
      (max maxOrdering (overlapMax newBounds sibling.leaves)) child
      (⟨addr, absorb newBounds entry, side, sibling⟩ :: frames) := by
  intro nodes' child sibling
  obtain ⟨⟨here, storedLeft, storedRight⟩, storedPath⟩ :=
    stored_absorb newBounds walking.stored walking.storedPath walking.distinct
  obtain ⟨overLeft, overRight, inLeft, inRight⟩ := walking.summarised
  have pathAbsorbed := summarisedPath_absorb walking.summarisedPath walking.absorbed
  have framesAbsorbed : ∀ frame ∈ (⟨addr, absorb newBounds entry, side, sibling⟩ :: frames :
      List (Frame (Entry K))), frame.data.1.Covers newBounds := by
    intro frame member
    rcases List.mem_cons.mp member with rfl | member
    · exact Bounds.union_covers_right _ _
    · exact walking.absorbed frame member
  have stack_eq : stack ++ [addr] =
      ((⟨addr, absorb newBounds entry, side, sibling⟩ :: frames).map Frame.addr).reverse := by
    simp [walking.stack_eq]
  have ordering_eq : max maxOrdering (overlapMax newBounds sibling.leaves) =
      overlapMax newBounds
        (pathLeaves (⟨addr, absorb newBounds entry, side, sibling⟩ :: frames)) := by
    have split : pathLeaves (⟨addr, absorb newBounds entry, side, sibling⟩ :: frames) =
        sibling.leaves ++ pathLeaves frames := rfl
    rw [split, overlapMax_append, max_comm, walking.maxOrdering_eq]
  have distinct := walking.distinct
  cases side with
  | left =>
      refine ⟨storedLeft, ⟨here, storedRight, storedPath⟩, ?_, inLeft,
        ⟨absorb_dominates overLeft, absorb_dominates overRight, inRight, pathAbsorbed⟩,
        framesAbsorbed, stack_eq, ordering_eq⟩
      refine (List.Perm.nodup_iff ?_).mp distinct
      simp only [addrs, pathAddrs, List.flatMap_cons, List.cons_append, List.append_assoc]
      exact List.perm_middle.symm
  | right =>
      refine ⟨storedRight, ⟨here, storedLeft, storedPath⟩, ?_, inRight,
        ⟨absorb_dominates overRight, absorb_dominates overLeft, inLeft, pathAbsorbed⟩,
        framesAbsorbed, stack_eq, ordering_eq⟩
      refine (List.Perm.nodup_iff ?_).mp distinct
      simp only [addrs, pathAddrs, List.flatMap_cons, List.cons_append, List.append_assoc]
      refine List.Perm.trans ?_ List.perm_middle.symm
      rw [← List.append_assoc, ← List.append_assoc]
      exact (List.perm_append_comm.append_right _).cons addr

/-- What a finished descent has established. -/
theorem descend_spec {newBounds : Bounds K} {nodes : List (Node K)} {stack : List Nat}
    {maxOrdering : DrawOrder} {subtree : ArenaTree (Entry K)}
    {frames : List (Frame (Entry K))}
    (walking : Walking newBounds nodes stack maxOrdering subtree frames)
    {steps : Nat} (enough : subtree.height ≤ steps) :
    ∃ nodes' stack' addr entry maxOrdering' frames',
      descend newBounds steps nodes stack subtree.addr maxOrdering =
          some (nodes', stack', addr, maxOrdering') ∧
        Walking newBounds nodes' stack' maxOrdering' (leaf addr entry) frames' ∧
        (plug subtree frames).leaves.Perm (plug (leaf addr entry) frames').leaves ∧
        (plug subtree frames).addr = (plug (leaf addr entry) frames').addr := by
  induction subtree generalizing nodes stack maxOrdering frames steps with
  | leaf addr entry =>
      obtain ⟨steps, rfl⟩ : ∃ previous, steps = previous + 1 :=
        Nat.exists_eq_succ_of_ne_zero (by simp [height] at enough; omega)
      have here := readNodes_eq_leaf_iff.1 walking.stored
      refine ⟨nodes, stack, addr, entry, maxOrdering, frames, ?_, walking, List.Perm.refl _, rfl⟩
      simp only [descend, addr_leaf, here]
  | node addr entry left right leftIh rightIh =>
      obtain ⟨steps, rfl⟩ : ∃ previous, steps = previous + 1 :=
        Nat.exists_eq_succ_of_ne_zero (by simp [height] at enough; omega)
      simp only [height] at enough
      have here := readNodes_eq_internal_iff.1 walking.stored.1
      have enterLeft := walking.enter .left
      have enterRight := walking.enter .right
      simp only at enterLeft enterRight
      set nodes' := nodes.set addr
        (.internal left.addr right.addr (entry.1.union newBounds) entry.2) with nodes'_def
      have storedLeft := enterLeft.stored
      have storedRight := enterRight.stored
      have distinctLeft : left.addrs.Nodup := enterLeft.distinct.of_append_left
      have distinctRight : right.addrs.Nodup := enterRight.distinct.of_append_left
      have leftPresent := storedLeft.isSome _ (addr_mem_addrs left)
      have rightPresent := storedRight.isSome _ (addr_mem_addrs right)
      simp only [readNodes, Option.isSome_map] at leftPresent rightPresent
      obtain ⟨leftNode, leftRead⟩ := Option.isSome_iff_exists.mp leftPresent
      obtain ⟨rightNode, rightRead⟩ := Option.isSome_iff_exists.mp rightPresent
      have searchLeft := findMaxOrdering_eq storedLeft walking.summarised.2.2.1
        (height_le_length storedLeft distinctLeft) newBounds maxOrdering
      have searchRight := findMaxOrdering_eq storedRight walking.summarised.2.2.2
        (height_le_length storedRight distinctRight) newBounds maxOrdering
      have unfolded : descend newBounds (steps + 1) nodes stack addr maxOrdering =
          if (newBounds.union leftNode.bounds).halfPerimeter <
              (newBounds.union rightNode.bounds).halfPerimeter then
            descend newBounds steps nodes' (stack ++ [addr]) left.addr
              (max maxOrdering (overlapMax newBounds right.leaves))
          else
            descend newBounds steps nodes' (stack ++ [addr]) right.addr
              (max maxOrdering (overlapMax newBounds left.leaves)) := by
        simp only [descend, here, ← nodes'_def, leftRead, rightRead, Option.bind_eq_bind,
          Option.bind_some, searchLeft, searchRight]
      rw [addr_node, unfolded]
      split
      · have enoughLeft : left.height ≤ steps := by omega
        obtain ⟨finalNodes, finalStack, leafAddr, leafEntry, finalOrdering, finalFrames,
          ran, finalWalking, leaves_perm, addr_eq⟩ := leftIh enterLeft enoughLeft
        refine ⟨finalNodes, finalStack, leafAddr, leafEntry, finalOrdering, finalFrames, ran,
          finalWalking, ?_, ?_⟩
        · refine List.Perm.trans ?_ leaves_perm
          exact (plug_leaves_perm _ _).trans (by simp [pathLeaves, leaves]) |>.trans
            (plug_leaves_perm _ _).symm
        · rw [← addr_eq, plug_addr, plug_addr]
          cases frames <;> simp [List.getLast?_cons]
      · have enoughRight : right.height ≤ steps := by omega
        obtain ⟨finalNodes, finalStack, leafAddr, leafEntry, finalOrdering, finalFrames,
          ran, finalWalking, leaves_perm, addr_eq⟩ := rightIh enterRight enoughRight
        refine ⟨finalNodes, finalStack, leafAddr, leafEntry, finalOrdering, finalFrames, ran,
          finalWalking, ?_, ?_⟩
        · refine List.Perm.trans ?_ leaves_perm
          refine (plug_leaves_perm _ _).trans (List.Perm.trans ?_ (plug_leaves_perm _ _).symm)
          simp only [leaves, pathLeaves, List.flatMap_cons, ← List.append_assoc]
          exact List.perm_append_comm.append_right _
        · rw [← addr_eq, plug_addr, plug_addr]
          cases frames <;> simp [List.getLast?_cons]

/-! ## Attaching the new leaf -/

/-- `raiseMaxOrder` on the frames of a path. -/
def raiseFrames (ordering : DrawOrder) : List (Frame (Entry K)) → List (Frame (Entry K))
  | [] => []
  | frame :: frames =>
      if frame.data.2 ≥ ordering then frame :: frames
      else { frame with data := (frame.data.1, ordering) } :: raiseFrames ordering frames

omit [Field K] [LinearOrder K] in
theorem raiseFrames_pathAddrs (ordering : DrawOrder) (frames : List (Frame (Entry K))) :
    pathAddrs (raiseFrames ordering frames) = pathAddrs frames := by
  induction frames with
  | nil => rfl
  | cons frame frames ih =>
      simp only [raiseFrames]
      split
      · rfl
      · simpa [pathAddrs] using ih

omit [Field K] [LinearOrder K] in
theorem raiseFrames_pathLeaves (ordering : DrawOrder) (frames : List (Frame (Entry K))) :
    pathLeaves (raiseFrames ordering frames) = pathLeaves frames := by
  induction frames with
  | nil => rfl
  | cons frame frames ih =>
      simp only [raiseFrames]
      split
      · rfl
      · simpa [pathLeaves] using ih

omit [Field K] [LinearOrder K] in
theorem raiseFrames_getLast_addr (ordering : DrawOrder) (frames : List (Frame (Entry K))) :
    (raiseFrames ordering frames).getLast?.map Frame.addr = frames.getLast?.map Frame.addr := by
  induction frames with
  | nil => rfl
  | cons frame frames ih =>
      simp only [raiseFrames]
      split
      · rfl
      · simp only [List.getLast?_cons, Option.map_some, Option.some.injEq]
        cases raised : (raiseFrames ordering frames).getLast? with
        | none =>
            cases kept : frames.getLast? with
            | none => rfl
            | some last => simp [raised, kept] at ih
        | some last =>
            cases kept : frames.getLast? with
            | none => simp [raised, kept] at ih
            | some last' => simpa [raised, kept] using ih

/-- Raising stops at the first frame that is already high enough, which leaves
every frame above it high enough as well. -/
theorem raiseFrames_summarised {ordering : DrawOrder} {hole : Entry K}
    {frames : List (Frame (Entry K))} (summarised : SummarisedPath Dominates hole frames) :
    SummarisedPath Dominates (hole.1, max hole.2 ordering) (raiseFrames ordering frames) := by
  induction frames generalizing hole with
  | nil => trivial
  | cons frame frames ih =>
      obtain ⟨overHole, overSibling, inSibling, rest⟩ := summarised
      simp only [raiseFrames]
      split
      · rename_i high
        exact ⟨⟨overHole.1, max_le overHole.2 high⟩, overSibling, inSibling, rest⟩
      · rename_i low
        have below := le_of_lt (not_le.mp low)
        refine ⟨⟨overHole.1, max_le (overHole.2.trans below) le_rfl⟩,
          ⟨overSibling.1, overSibling.2.trans below⟩, inSibling, ?_⟩
        have raised := ih rest
        rwa [max_eq_right below] at raised

omit [Field K] [LinearOrder K] in
/-- The arena loop performs `raiseFrames` on the stored path and touches no
other cell. -/
theorem raiseMaxOrder_spec (ordering : DrawOrder) {nodes : List (Node K)} {hole : Nat}
    {frames : List (Frame (Entry K))} (stored : StoredPath (readNodes nodes) hole frames)
    (distinct : (pathAddrs frames).Nodup) :
    ∃ nodes', raiseMaxOrder ordering (frames.map Frame.addr) nodes = some nodes' ∧
      StoredPath (readNodes nodes') hole (raiseFrames ordering frames) ∧
      ∀ index, index ∉ pathAddrs frames → readNodes nodes' index = readNodes nodes index := by
  induction frames generalizing nodes hole with
  | nil => exact ⟨nodes, rfl, trivial, fun _ _ => rfl⟩
  | cons frame frames ih =>
      obtain ⟨here, inSibling, rest⟩ := stored
      simp only [pathAddrs, List.flatMap_cons, List.cons_append, List.nodup_cons,
        List.mem_append, not_or, List.nodup_append] at distinct
      obtain ⟨⟨notSibling, notPath⟩, -, distinctRest, apart⟩ := distinct
      obtain ⟨left, right, cell_eq, cell_raised⟩ : ∃ left right,
          frame.cell hole = .internal left right frame.data ∧
            ({ frame with data := (frame.data.1, ordering) } : Frame (Entry K)).cell hole =
              .internal left right (frame.data.1, ordering) := by
        unfold Frame.cell
        cases frame.side
        · exact ⟨_, _, rfl, rfl⟩
        · exact ⟨_, _, rfl, rfl⟩
      rw [cell_eq] at here
      have read := readNodes_eq_internal_iff.1 here
      simp only [raiseFrames, List.map_cons, raiseMaxOrder, read]
      split
      · exact ⟨nodes, rfl, ⟨cell_eq ▸ here, inSibling, rest⟩, fun _ _ => rfl⟩
      · set updated := nodes.set frame.addr
          (.internal left right frame.data.1 ordering) with updated_def
        have unchanged : ∀ index, index ≠ frame.addr →
            readNodes updated index = readNodes nodes index := fun index different =>
          readNodes_set_ne _ different
        have restUpdated : StoredPath (readNodes updated) frame.addr frames :=
          rest.congr fun index member => unchanged index fun equal => notPath (equal ▸ member)
        obtain ⟨nodes', ran, raised, kept⟩ := ih restUpdated distinctRest
        refine ⟨nodes', ran, ⟨?_, inSibling.congr ?_, raised⟩, ?_⟩
        · rw [kept frame.addr notPath, cell_raised]
          exact readNodes_set_self _ (by simp [here])
        · intro index member
          have outside : index ∉ pathAddrs frames := fun inPath =>
            apart index member index inPath rfl
          rw [kept index outside]
          exact unchanged index fun equal => notSibling (equal ▸ member)
        · intro index outside
          simp only [pathAddrs, List.flatMap_cons, List.cons_append, List.mem_cons,
            List.mem_append, not_or] at outside
          rw [kept index outside.2.2]
          exact unchanged index outside.1

/-- The parent of the located leaf and of the new leaf. -/
def newParentTree (sibling newNode newParent : Nat) (entry newEntry : Entry K) :
    ArenaTree (Entry K) :=
  node newParent (entry.1.union newEntry.1, max entry.2 newEntry.2)
    (leaf sibling entry) (leaf newNode newEntry)

omit [Field K] [LinearOrder K] in
/-- Repointing the parent of the located leaf gives a path whose hole is the
new parent. -/
theorem replaceChild_spec {nodes : List (Node K)} {sibling newParent : Nat}
    {frame : Frame (Entry K)} {frames : List (Frame (Entry K))}
    (stored : StoredPath (readNodes nodes) sibling (frame :: frames))
    (distinct : (sibling :: pathAddrs (frame :: frames)).Nodup) :
    ∃ nodes', replaceChild nodes frame.addr sibling newParent = some nodes' ∧
      StoredPath (readNodes nodes') newParent (frame :: frames) ∧
      ∀ index, index ≠ frame.addr → readNodes nodes' index = readNodes nodes index := by
  obtain ⟨here, inSibling, rest⟩ := stored
  simp only [pathAddrs, List.flatMap_cons, List.cons_append, List.nodup_cons,
    List.mem_cons, List.mem_append, not_or] at distinct
  obtain ⟨⟨-, siblingApart, -⟩, ⟨notSibling, notPath⟩, -⟩ := distinct
  have siblingAddr : frame.sibling.addr ≠ sibling := fun equal =>
    siblingApart (equal ▸ addr_mem_addrs frame.sibling)
  have restUpdated : ∀ updated : Node K,
      StoredPath (readNodes (nodes.set frame.addr updated)) frame.addr frames := fun updated =>
    rest.congr fun index member => readNodes_set_ne _ fun equal => notPath (equal ▸ member)
  have siblingUpdated : ∀ updated : Node K,
      frame.sibling.Stored (readNodes (nodes.set frame.addr updated)) := fun updated =>
    inSibling.congr fun index member => readNodes_set_ne _ fun equal => notSibling (equal ▸ member)
  unfold Frame.cell at here
  cases side : frame.side with
  | left =>
      simp only [side] at here
      have read := readNodes_eq_internal_iff.1 here
      refine ⟨nodes.set frame.addr
          (.internal newParent frame.sibling.addr frame.data.1 frame.data.2),
        by simp [replaceChild, read], ⟨?_, siblingUpdated _, restUpdated _⟩,
        fun index different => readNodes_set_ne _ different⟩
      rw [Frame.cell, side]
      exact readNodes_set_self _ (by simp [here])
  | right =>
      simp only [side] at here
      have read := readNodes_eq_internal_iff.1 here
      refine ⟨nodes.set frame.addr
          (.internal frame.sibling.addr newParent frame.data.1 frame.data.2),
        by simp [replaceChild, read, siblingAddr], ⟨?_, siblingUpdated _, restUpdated _⟩,
        fun index different => readNodes_set_ne _ different⟩
      rw [Frame.cell, side]
      exact readNodes_set_self _ (by simp [here])

omit [Field K] [LinearOrder K] in
theorem relink_spec (root : Option Nat) {nodes : List (Node K)} {sibling : Nat} (newParent : Nat)
    {frames : List (Frame (Entry K))}
    (stored : StoredPath (readNodes nodes) sibling frames)
    (distinct : (sibling :: pathAddrs frames).Nodup) :
    ∃ nodes', relink root nodes (frames.map Frame.addr).reverse sibling newParent =
        some (if frames = [] then some newParent else root, nodes') ∧
      StoredPath (readNodes nodes') newParent frames ∧
      ∀ index, index ∉ pathAddrs frames → readNodes nodes' index = readNodes nodes index := by
  cases frames with
  | nil => exact ⟨nodes, rfl, trivial, fun _ _ => rfl⟩
  | cons frame frames =>
      obtain ⟨nodes', replaced, storedPath, kept⟩ := replaceChild_spec stored distinct
      refine ⟨nodes', ?_, storedPath, ?_⟩
      · simp [relink, replaced]
      · intro index outside
        apply kept
        intro equal
        exact outside (by simp [pathAddrs, equal])

/-- The arena after the new leaf and the parent of both leaves are pushed. -/
def extend (nodes : List (Node K)) (sibling : Nat) (entry newEntry : Entry K) : List (Node K) :=
  nodes ++ [.leaf newEntry.1 newEntry.2] ++
    [.internal sibling nodes.length (entry.1.union newEntry.1) (max entry.2 newEntry.2)]

theorem pushInternal_extend {nodes : List (Node K)} {sibling : Nat} {entry : Entry K}
    (stored : readNodes nodes sibling = some (.leaf entry)) (newEntry : Entry K) :
    pushInternal (nodes ++ [.leaf newEntry.1 newEntry.2]) sibling nodes.length =
      some (nodes.length + 1, extend nodes sibling entry newEntry) := by
  have siblingPushed :
      (nodes ++ [Node.leaf newEntry.1 newEntry.2])[sibling]? = some (.leaf entry.1 entry.2) := by
    rw [← readNodes_eq_leaf_iff, readNodes_append_of_isSome _ (by simp [stored])]
    exact stored
  simp [pushInternal, siblingPushed, Node.bounds, Node.maxOrdering, extend]

theorem readNodes_extend {nodes : List (Node K)} {index : Nat}
    (present : (readNodes nodes index).isSome) (sibling : Nat) (entry newEntry : Entry K) :
    readNodes (extend nodes sibling entry newEntry) index = readNodes nodes index := by
  have pushed := readNodes_append_of_isSome (.leaf newEntry.1 newEntry.2) present
  rw [extend, readNodes_append_of_isSome _ (by rw [pushed]; exact present)]
  exact pushed

theorem readNodes_extend_leaf (nodes : List (Node K)) (sibling : Nat) (entry newEntry : Entry K) :
    readNodes (extend nodes sibling entry newEntry) nodes.length = some (.leaf newEntry) := by
  have pushed := readNodes_append_length nodes (.leaf newEntry.1 newEntry.2)
  rw [extend, readNodes_append_of_isSome _ (by rw [pushed]; rfl)]
  exact pushed

theorem readNodes_extend_parent (nodes : List (Node K)) (sibling : Nat)
    (entry newEntry : Entry K) :
    readNodes (extend nodes sibling entry newEntry) (nodes.length + 1) =
      some (.internal sibling nodes.length
        (entry.1.union newEntry.1, max entry.2 newEntry.2)) := by
  have last := readNodes_append_length (nodes ++ [.leaf newEntry.1 newEntry.2])
    (.internal sibling nodes.length (entry.1.union newEntry.1) (max entry.2 newEntry.2))
  rw [List.length_append, List.length_singleton] at last
  exact last

omit [Field K] [LinearOrder K] in
theorem lt_length_of_isSome {nodes : List (Node K)} {index : Nat}
    (present : (readNodes nodes index).isSome) : index < nodes.length := by
  simpa [readNodes] using present

/-- Relinking and raising the path of the located leaf leaves a well-formed tree
with the new entry beside it. -/
theorem attach_spec {newBounds : Bounds K} {nodes : List (Node K)} {stack : List Nat}
    {maxOrdering : DrawOrder} {sibling : Nat} {entry : Entry K} {frames : List (Frame (Entry K))}
    (arrived : Walking newBounds nodes stack maxOrdering (leaf sibling entry) frames)
    (ordering : DrawOrder) (root : Option Nat) :
    ∃ relinked raised,
      relink root (extend nodes sibling entry (newBounds, ordering)) stack sibling
          (nodes.length + 1) =
        some (if frames = [] then some (nodes.length + 1) else root, relinked) ∧
      raiseMaxOrder ordering stack.reverse relinked = some raised ∧
      HasShape raised (entry :: pathLeaves frames ++ [(newBounds, ordering)])
        (plug (newParentTree sibling nodes.length (nodes.length + 1) entry (newBounds, ordering))
          (raiseFrames ordering frames)) := by
  have siblingStored : readNodes nodes sibling = some (.leaf entry) := arrived.stored
  have siblingPresent : (readNodes nodes sibling).isSome := by simp [siblingStored]
  have pathPresent := arrived.storedPath.isSome
  have distinct : (sibling :: pathAddrs frames).Nodup := arrived.distinct
  have storedExtended := arrived.storedPath.congr fun index member =>
    readNodes_extend (pathPresent index member) sibling entry (newBounds, ordering)
  obtain ⟨relinked, relinked_eq, storedRelinked, keptRelinked⟩ :=
    relink_spec root (nodes.length + 1) storedExtended distinct
  obtain ⟨raised, raised_eq, storedRaised, keptRaised⟩ :=
    raiseMaxOrder_spec ordering storedRelinked (List.nodup_cons.mp distinct).2
  have kept : ∀ index, index ∉ pathAddrs frames → readNodes raised index =
      readNodes (extend nodes sibling entry (newBounds, ordering)) index := fun index outside =>
    (keptRaised index outside).trans (keptRelinked index outside)
  have sibling_lt := lt_length_of_isSome siblingPresent
  have newNode_outside : nodes.length ∉ pathAddrs frames := fun member =>
    (lt_length_of_isSome (pathPresent _ member)).ne rfl
  have newParent_outside : nodes.length + 1 ∉ pathAddrs frames := fun member =>
    absurd (lt_length_of_isSome (pathPresent _ member)) (by omega)
  refine ⟨relinked, raised, ?_, ?_, (plug_stored_iff _ _ _).mpr ⟨⟨?_, ?_, ?_⟩, storedRaised⟩,
    ?_, ?_, ?_⟩
  · rw [arrived.stack_eq]
    exact relinked_eq
  · rw [arrived.stack_eq, List.reverse_reverse]
    exact raised_eq
  · rw [kept _ newParent_outside]
    exact readNodes_extend_parent nodes sibling entry (newBounds, ordering)
  · show readNodes raised sibling = some (.leaf entry)
    rw [kept sibling (List.nodup_cons.mp distinct).1, readNodes_extend siblingPresent]
    exact siblingStored
  · show readNodes raised nodes.length = some (.leaf (newBounds, ordering))
    rw [kept _ newNode_outside]
    exact readNodes_extend_leaf nodes sibling entry (newBounds, ordering)
  · refine (plug_addrs_perm _ _).nodup_iff.mpr ?_
    rw [raiseFrames_pathAddrs]
    simp only [newParentTree, addrs, List.cons_append, List.nil_append]
    refine List.nodup_cons.mpr ⟨?_, (List.Perm.swap nodes.length sibling _).nodup_iff.mpr
      (List.nodup_cons.mpr ⟨?_, distinct⟩)⟩
    · simp only [List.mem_cons, not_or]
      exact ⟨by omega, by omega, newParent_outside⟩
    · simp only [List.mem_cons, not_or]
      exact ⟨sibling_lt.ne', newNode_outside⟩
  · refine (plug_summarised_iff _ _ _).mpr ⟨⟨?_, ?_, trivial, trivial⟩, ?_⟩
    · exact ⟨Bounds.union_covers_left _ _, le_max_left _ _⟩
    · exact ⟨Bounds.union_covers_right _ _, le_max_right _ _⟩
    · exact raiseFrames_summarised
        (summarisedPath_absorb arrived.summarisedPath arrived.absorbed)
  · refine (plug_leaves_perm _ _).trans ?_
    rw [raiseFrames_pathLeaves]
    simp only [newParentTree, leaves, List.cons_append]
    exact (List.perm_append_singleton _ _).symm.cons entry

/-! ## The whole insertion -/

/-- The descent starts at the root with an empty path. -/
theorem walking_root {tree : BoundsTree K} {entries : List (Entry K)} {shape : ArenaTree (Entry K)}
    (stackEmpty : tree.stack = []) (hasShape : HasShape tree.nodes entries shape)
    (newBounds : Bounds K) : Walking newBounds tree.nodes tree.stack 0 shape [] where
  stored := hasShape.stored
  storedPath := trivial
  distinct := by simpa [pathAddrs] using hasShape.distinct
  summarised := hasShape.summarised
  summarisedPath := trivial
  absorbed := by simp
  stack_eq := by simpa using stackEmpty
  maxOrdering_eq := rfl

/-- One insertion returns one more than the largest overlapping order and
represents the extended list of entries. -/
theorem insert_spec {tree : BoundsTree K} {entries : List (Entry K)}
    (represents : Represents tree entries) (newBounds : Bounds K) :
    ∃ tree', insert tree newBounds = some (overlapMax newBounds entries + 1, tree') ∧
      Represents tree' (entries ++ [(newBounds, overlapMax newBounds entries + 1)]) := by
  obtain ⟨stackEmpty, shaped⟩ := represents
  cases rootCase : tree.root with
  | none =>
      rw [rootCase] at shaped
      subst shaped
      refine ⟨{ tree with
          root := some tree.nodes.length, nodes := tree.nodes ++ [.leaf newBounds 1] }, ?_,
        stackEmpty, leaf tree.nodes.length (newBounds, 1), rfl, ?_⟩
      · simp [insert, rootCase, pushLeaf, overlapMax]
      · exact ⟨readNodes_append_length _ _, by simp [addrs], trivial, List.Perm.refl _⟩
  | some index =>
      rw [rootCase] at shaped
      obtain ⟨shape, rfl, hasShape⟩ := shaped
      obtain ⟨nodes, stack, sibling, entry, maxOrdering, frames, descended, arrived,
        leaves_perm, addr_eq⟩ :=
        descend_spec (walking_root stackEmpty hasShape newBounds)
          (height_le_length hasShape.stored hasShape.distinct)
      have entries_perm : (entry :: pathLeaves frames).Perm entries :=
        ((plug_leaves_perm (leaf sibling entry) frames).symm.trans leaves_perm.symm).trans
          hasShape.leaves_perm
      have ordering_eq : (if entry.1.intersects newBounds then max maxOrdering entry.2
          else maxOrdering) = overlapMax newBounds entries := by
        rw [← overlapMax_perm entries_perm, arrived.maxOrdering_eq]
        simp only [overlapMax, max_comm]
      have siblingRead := readNodes_eq_leaf_iff.1 arrived.stored
      set ordering := overlapMax newBounds entries + 1 with ordering_def
      have pushed := pushInternal_extend arrived.stored (newBounds, ordering)
      obtain ⟨relinked, raised, relinked_eq, raised_eq, attached⟩ :=
        attach_spec arrived ordering (some shape.addr)
      refine ⟨⟨if frames = [] then some (nodes.length + 1) else some shape.addr, raised, []⟩, ?_,
        rfl, ?_⟩
      · simp only at pushed
        simp [insert, rootCase, descended, siblingRead, ordering_eq, ← ordering_def, pushLeaf,
          pushed, relinked_eq, raised_eq]
      · have grown : HasShape raised (entries ++ [(newBounds, ordering)]) _ :=
          { attached with leaves_perm := attached.leaves_perm.trans (entries_perm.append_right _) }
        by_cases rootHole : frames = []
        · subst rootHole
          exact ⟨_, by simp [plug, newParentTree, raiseFrames], grown⟩
        · simp only [rootHole, if_false]
          refine ⟨_, ?_, grown⟩
          rw [show shape.addr = (plug shape []).addr from rfl, addr_eq, plug_addr, plug_addr,
            raiseFrames_getLast_addr]
          obtain ⟨last, getLast_eq⟩ := Option.isSome_iff_exists.mp
            (List.getLast?_isSome.mpr rootHole)
          simp [getLast_eq]

end Gpui.BoundsTree
