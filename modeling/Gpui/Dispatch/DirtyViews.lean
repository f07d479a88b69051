import Gpui.Dispatch.Frames

/-!
# Dirty views

Before a frame is drawn the views of the notified entities are marked dirty with all views
above them, found by walking up the tree of the rendered frame.  The tree has one node to
begin at for each view, the last place where the view was set, and the walk stops at the
first view that is dirty already.
-/

namespace Gpui

open Gpui.Library

variable {L : Type}

/-- Mark the views of a path until one is dirty already. -/
def markPath : List EntityId → Finset EntityId → Finset EntityId
  | [], dirtyViews => dirtyViews
  | viewId :: path, dirtyViews =>
      if viewId ∈ dirtyViews then dirtyViews else markPath path (insert viewId dirtyViews)

namespace DispatchTree

/-- The views from a node up to its root. -/
def viewsAbove (self : DispatchTree L) (nodeId : DispatchNodeId) : Option (List EntityId) :=
  (self.ancestry (self.nodes.length + 1) (some nodeId)).map self.viewsOf

def viewPathReversed (self : DispatchTree L) (viewId : EntityId) : Option (List EntityId) :=
  match self.viewNodeIds viewId with
  | some nodeId => self.viewsAbove nodeId
  | none => some []

def markViewDirty (self : DispatchTree L) (dirtyViews : Finset EntityId) (viewId : EntityId) :
    Option (Finset EntityId) :=
  (self.viewPathReversed viewId).map fun path => markPath path dirtyViews

/-- The set of views is drained in some order. -/
def invalidateEntities (self : DispatchTree L) (views : List EntityId) :
    Option (Finset EntityId) :=
  views.foldlM self.markViewDirty ∅

end DispatchTree

/-! ## Cached views -/

structure ViewCacheKey (B T : Type) where
  bounds : B
  contentMask : B
  textStyle : T
deriving DecidableEq

/-- The branch of `AnyView::prepaint` that reuses what the view drew in the rendered frame. -/
def takesReuseBranch {B T : Type} [DecidableEq B] [DecidableEq T] (entityId : EntityId)
    (elementState : Option (ViewCacheKey B T)) (cacheKey : ViewCacheKey B T)
    (dirtyViews : Finset EntityId) (refreshing : Bool) : Bool :=
  match elementState with
  | some stored => stored = cacheKey && !decide (entityId ∈ dirtyViews) && !refreshing
  | none => false

theorem takesReuseBranch_of_dirty {B T : Type} [DecidableEq B] [DecidableEq T]
    {entityId : EntityId} {dirtyViews : Finset EntityId} (dirty : entityId ∈ dirtyViews)
    (elementState : Option (ViewCacheKey B T)) (cacheKey : ViewCacheKey B T)
    (refreshing : Bool) :
    takesReuseBranch entityId elementState cacheKey dirtyViews refreshing = false := by
  cases elementState with
  | none => rfl
  | some stored => simp [takesReuseBranch, dirty]

/-! ## One walk -/

theorem subset_markPath (path : List EntityId) (dirtyViews : Finset EntityId) :
    dirtyViews ⊆ markPath path dirtyViews := by
  induction path generalizing dirtyViews with
  | nil => exact subset_rfl
  | cons viewId path ih =>
      rw [markPath]
      split
      · exact subset_rfl
      · exact (Finset.subset_insert _ _).trans (ih _)

theorem mem_of_mem_markPath {path : List EntityId} {dirtyViews : Finset EntityId}
    {viewId : EntityId} (marked : viewId ∈ markPath path dirtyViews) :
    viewId ∈ dirtyViews ∨ viewId ∈ path := by
  induction path generalizing dirtyViews with
  | nil => exact Or.inl marked
  | cons first path ih =>
      rw [markPath] at marked
      split at marked
      · exact Or.inl marked
      · rcases ih marked with inserted | above
        · rcases Finset.mem_insert.mp inserted with rfl | before
          · exact Or.inr List.mem_cons_self
          · exact Or.inl before
        · exact Or.inr (List.mem_cons_of_mem _ above)

/-- A view met again ends the walk. -/
theorem markPath_repeated {front back : List EntityId} {viewId : EntityId}
    {dirtyViews : Finset EntityId} (again : viewId ∈ dirtyViews ∨ viewId ∈ front) :
    markPath (front ++ viewId :: back) dirtyViews = markPath front dirtyViews := by
  induction front generalizing dirtyViews with
  | nil =>
      have dirty : viewId ∈ dirtyViews := by simpa using again
      simp [markPath, dirty]
  | cons first front ih =>
      rw [List.cons_append, markPath, markPath]
      split
      next => rfl
      next =>
        apply ih
        rcases again with dirty | inFront
        · exact Or.inl (Finset.mem_insert_of_mem dirty)
        · rcases List.mem_cons.mp inFront with rfl | later
          · exact Or.inl (Finset.mem_insert_self _ _)
          · exact Or.inr later

/-- The walk marks the whole path if nothing new follows the views that end it. -/
theorem mem_markPath {path : List EntityId} {dirtyViews : Finset EntityId}
    (harmless : ∀ front viewId back, path = front ++ viewId :: back →
      viewId ∈ dirtyViews ∨ viewId ∈ front → ∀ above ∈ back,
        above ∈ dirtyViews ∨ above ∈ front) :
    ∀ viewId ∈ path, viewId ∈ markPath path dirtyViews := by
  induction path generalizing dirtyViews with
  | nil => simp
  | cons first path ih =>
      intro viewId member
      rw [markPath]
      split
      next dirty =>
        rcases List.mem_cons.mp member with rfl | above
        · exact dirty
        · simpa using harmless [] first path rfl (Or.inl dirty) viewId above
      next =>
        rcases List.mem_cons.mp member with rfl | above
        · exact subset_markPath _ _ (Finset.mem_insert_self _ _)
        · refine ih ?_ viewId above
          intro front again back split ends other beyond
          have moved (view : EntityId) : view ∈ insert first dirtyViews ∨ view ∈ front ↔
              view ∈ dirtyViews ∨ view ∈ first :: front := by
            rw [Finset.mem_insert, List.mem_cons]
            tauto
          rw [moved] at ends ⊢
          exact harmless (first :: front) again back (by rw [split]; rfl) ends other beyond

namespace DispatchTree

/-! ## Paths to the root -/

theorem ancestry_mono {self : DispatchTree L} {rounds more : Nat} (enough : rounds ≤ more)
    {nodeId : Option DispatchNodeId} {walk : List DispatchNodeId}
    (walks : self.ancestry rounds nodeId = some walk) :
    self.ancestry more nodeId = some walk := by
  induction rounds generalizing more nodeId walk with
  | zero =>
      cases nodeId with
      | none => cases more <;> exact walks
      | some nodeId => cases walks
  | succ rounds ih =>
      cases nodeId with
      | none => cases more <;> exact walks
      | some nodeId =>
          cases more with
          | zero => cases enough
          | succ more =>
              simp only [ancestry, Option.bind_eq_bind, Option.bind_eq_some_iff] at walks ⊢
              rcases walks with ⟨node, here, above, walksAbove, same⟩
              exact ⟨node, here, above, ih (Nat.le_of_succ_le_succ enough) walksAbove, same⟩

/-- The rest of a walk is the walk from the node it goes on with. -/
theorem ancestry_suffix {self : DispatchTree L} {rounds : Nat}
    {start : Option DispatchNodeId} {front back : List DispatchNodeId}
    {nodeId : DispatchNodeId}
    (walks : self.ancestry rounds start = some (front ++ nodeId :: back)) :
    self.ancestry rounds (some nodeId) = some (nodeId :: back) := by
  induction rounds generalizing start front with
  | zero =>
      cases start with
      | none => simp [ancestry] at walks
      | some start => cases walks
  | succ rounds ih =>
      cases start with
      | none => simp [ancestry] at walks
      | some start =>
          have whole := walks
          simp only [ancestry, Option.bind_eq_bind, Option.bind_eq_some_iff, Option.pure_def,
            Option.some.injEq] at walks
          rcases walks with ⟨node, here, above, walksAbove, same⟩
          cases front with
          | nil =>
              cases same
              exact whole
          | cons first front =>
              cases same
              exact ancestry_mono (Nat.le_succ rounds) (ih walksAbove)

/-- The rest of a path of views is the path of a node that shows the view it goes on
with. -/
theorem viewsAbove_suffix {self : DispatchTree L} {nodeId : DispatchNodeId}
    {front back : List EntityId} {viewId : EntityId}
    (path : self.viewsAbove nodeId = some (front ++ viewId :: back)) :
    ∃ place, self.Shows place viewId ∧ self.viewsAbove place = some (viewId :: back) := by
  rcases Option.map_eq_some_iff.mp path with ⟨walk, walks, views⟩
  rcases List.filterMap_eq_append_iff.mp views with ⟨low, high, rfl, -, views⟩
  rcases List.filterMap_eq_cons_iff.mp views with ⟨plain, place, rest, rfl, -, carried, above⟩
  rcases Option.bind_eq_some_iff.mp carried with ⟨node, here, viewHere⟩
  rw [← List.append_assoc] at walks
  have suffix := ancestry_suffix walks
  refine ⟨place, ⟨node, here, viewHere⟩, ?_⟩
  rw [viewsAbove, suffix, Option.map_some, viewsOf, List.filterMap_cons, carried]
  exact congrArg (fun views => some (viewId :: views)) above

/-- The path of a node that shows a view begins with it. -/
theorem viewsAbove_cons {self : DispatchTree L} {nodeId : DispatchNodeId} {viewId : EntityId}
    (shows_ : self.Shows nodeId viewId) {path : List EntityId}
    (above : self.viewsAbove nodeId = some path) : ∃ back, path = viewId :: back := by
  rcases shows_ with ⟨node, here, carried⟩
  rcases Option.map_eq_some_iff.mp above with ⟨walk, walks, rfl⟩
  simp only [ancestry, here, Option.bind_eq_bind, Option.bind_some, Option.bind_eq_some_iff,
    Option.pure_def, Option.some.injEq] at walks
  rcases walks with ⟨rest, -, rfl⟩
  exact ⟨self.viewsOf rest, by simp [viewsOf, here, carried]⟩

theorem Framed.exists_viewsAbove {self : DispatchTree L} (framed : self.Framed)
    {nodeId : DispatchNodeId} {viewId : EntityId} (shows_ : self.Shows nodeId viewId) :
    ∃ path, self.viewsAbove nodeId = some path := by
  rcases shows_ with ⟨node, here, -⟩
  have bound := (List.getElem?_eq_some_iff.mp here).1
  rcases Option.isSome_iff_exists.mp (ancestry_isSome framed.older bound
    (Nat.lt_succ_of_lt bound)) with ⟨walk, walks⟩
  exact ⟨self.viewsOf walk, by rw [viewsAbove, walks]; rfl⟩

theorem Framed.exists_viewPathReversed {self : DispatchTree L} (framed : self.Framed)
    (viewId : EntityId) : ∃ path, self.viewPathReversed viewId = some path := by
  unfold viewPathReversed
  split
  next nodeId found => exact framed.exists_viewsAbove (framed.lookedUp viewId nodeId found)
  next => exact ⟨[], rfl⟩

/-! ## When the walk finds all views above -/

/-- What every place of a view has above it the place found for it has above it, and no
more than that is above the views below; and under a view that is above itself there is
all that is above it. -/
structure PlacedAlike (tree : DispatchTree L) : Prop where
  covers : ∀ viewId nodeId path found, tree.Shows nodeId viewId →
    tree.viewsAbove nodeId = some path → tree.viewPathReversed viewId = some found →
      path ⊆ found
  closed : ∀ viewId above path pathAbove, tree.viewPathReversed viewId = some path →
    above ∈ path → tree.viewPathReversed above = some pathAbove → pathAbove ⊆ path
  repeated : ∀ viewId above front back,
    tree.viewPathReversed viewId = some (front ++ above :: back) → above ∈ front → back ⊆ front

/-- With a view all views of the path found for it are dirty. -/
def Saturated (self : DispatchTree L) (dirtyViews : Finset EntityId) : Prop :=
  ∀ viewId ∈ dirtyViews, ∀ path, self.viewPathReversed viewId = some path →
    ∀ above ∈ path, above ∈ dirtyViews

/-- What stands on a path found for a view is the path of some place of it. -/
theorem PlacedAlike.suffix_subset {self : DispatchTree L} (alike : self.PlacedAlike)
    {viewId again : EntityId} {front back found : List EntityId}
    (path : self.viewPathReversed viewId = some (front ++ again :: back))
    (others : self.viewPathReversed again = some found) : back ⊆ found := by
  unfold viewPathReversed at path
  split at path
  next nodeId _ =>
    rcases viewsAbove_suffix path with ⟨place, shows_, above⟩
    exact List.Subset.trans (List.subset_cons_self _ _)
      (alike.covers again place _ found shows_ above others)
  next => simp at path

theorem Framed.markViewDirty {self : DispatchTree L} (framed : self.Framed)
    (alike : self.PlacedAlike) {dirtyViews : Finset EntityId}
    (saturated : self.Saturated dirtyViews) (viewId : EntityId) :
    ∃ marked, self.markViewDirty dirtyViews viewId = some marked ∧ dirtyViews ⊆ marked ∧
      self.Saturated marked ∧
      ∀ path, self.viewPathReversed viewId = some path → ∀ above ∈ path, above ∈ marked := by
  rcases framed.exists_viewPathReversed viewId with ⟨path, found⟩
  have whole : ∀ above ∈ path, above ∈ markPath path dirtyViews := by
    apply mem_markPath
    intro front again back split ends above beyond
    rw [split] at found
    rcases ends with dirty | inFront
    · rcases framed.exists_viewPathReversed again with ⟨others, foundAgain⟩
      exact Or.inl (saturated again dirty others foundAgain above
        (alike.suffix_subset found foundAgain beyond))
    · exact Or.inr (alike.repeated viewId again front back found inFront beyond)
  refine ⟨markPath path dirtyViews, by rw [DispatchTree.markViewDirty, found]; rfl,
    subset_markPath path dirtyViews, ?_, ?_⟩
  · intro marked member pathAbove foundAbove above beyond
    rcases mem_of_mem_markPath member with before | onPath
    · exact subset_markPath _ _ (saturated marked before pathAbove foundAbove above beyond)
    · exact whole above (alike.closed viewId marked path pathAbove found onPath foundAbove beyond)
  · intro other same
    rcases found.symm.trans same with ⟨⟩
    exact whole

theorem Framed.invalidateEntities {self : DispatchTree L} (framed : self.Framed)
    (alike : self.PlacedAlike) (views : List EntityId) {dirtyViews : Finset EntityId}
    (saturated : self.Saturated dirtyViews) :
    ∃ marked, views.foldlM self.markViewDirty dirtyViews = some marked ∧ dirtyViews ⊆ marked ∧
      ∀ viewId ∈ views, ∀ path, self.viewPathReversed viewId = some path →
        ∀ above ∈ path, above ∈ marked := by
  induction views generalizing dirtyViews with
  | nil => exact ⟨dirtyViews, rfl, subset_rfl, by simp⟩
  | cons first views ih =>
      rcases framed.markViewDirty alike saturated first with
        ⟨once, marks, grown, stillSaturated, ofFirst⟩
      rcases ih stillSaturated with ⟨marked, marksRest, grownMore, ofRest⟩
      refine ⟨marked, by rw [List.foldlM_cons, marks]; exact marksRest,
        grown.trans grownMore, ?_⟩
      intro viewId member path found above onPath
      rcases List.mem_cons.mp member with rfl | later
      · exact grownMore (ofFirst path found above onPath)
      · exact ofRest viewId later path found above onPath

/-- Marking these views, in this order, marks all views above every place of them. -/
def MarksAncestors (self : DispatchTree L) (views : List EntityId) : Prop :=
  ∃ dirtyViews, self.invalidateEntities views = some dirtyViews ∧
    ∀ viewId ∈ views, ∀ nodeId path, self.Shows nodeId viewId →
      self.viewsAbove nodeId = some path → ∀ above ∈ path, above ∈ dirtyViews

theorem Framed.marksAncestors {self : DispatchTree L} (framed : self.Framed)
    (alike : self.PlacedAlike) (views : List EntityId) : self.MarksAncestors views := by
  have nothing : self.Saturated ∅ := by simp [Saturated]
  rcases framed.invalidateEntities alike views nothing with ⟨marked, marks, -, all⟩
  refine ⟨marked, marks, ?_⟩
  intro viewId member nodeId path shows_ above view onPath
  rcases framed.exists_viewPathReversed viewId with ⟨found, foundAbove⟩
  exact all viewId member found foundAbove view
    (alike.covers viewId nodeId path found shows_ above foundAbove onPath)

/-- One view notified marks what is on the path found for it before a view repeats. -/
theorem invalidateEntities_singleton {self : DispatchTree L} {viewId : EntityId}
    {path : List EntityId} (found : self.viewPathReversed viewId = some path) :
    self.invalidateEntities [viewId] = some (markPath path ∅) := by
  simp [DispatchTree.invalidateEntities, DispatchTree.markViewDirty, found]

/-- The path found for a view is marked with it, since that is the path of a place of it. -/
theorem Framed.found_marked {self : DispatchTree L} (framed : self.Framed)
    {viewId : EntityId} (marks : self.MarksAncestors [viewId]) {path : List EntityId}
    (found : self.viewPathReversed viewId = some path) : path ⊆ (markPath path ∅).toList := by
  rcases marks with ⟨dirtyViews, invalidated, marked⟩
  rw [invalidateEntities_singleton found, Option.some.injEq] at invalidated
  subst invalidated
  intro above onPath
  rw [Finset.mem_toList]
  unfold viewPathReversed at found
  split at found
  next nodeId here =>
    exact marked viewId List.mem_cons_self nodeId path (framed.lookedUp viewId nodeId here)
      found above onPath
  next =>
    cases found
    cases onPath

theorem Framed.placedAlike {self : DispatchTree L} (framed : self.Framed)
    (marks : ∀ views : List EntityId, views.Nodup → self.MarksAncestors views) :
    self.PlacedAlike where
  covers viewId nodeId path found shows_ above foundAbove view onPath := by
    rcases marks [viewId] (List.nodup_singleton viewId) with ⟨dirtyViews, invalidated, marked⟩
    rw [invalidateEntities_singleton foundAbove, Option.some.injEq] at invalidated
    subst invalidated
    have dirty := marked viewId List.mem_cons_self nodeId path shows_ above view onPath
    simpa using mem_of_mem_markPath dirty
  closed viewId above path pathAbove found onPath foundAbove := by
    by_cases same : above = viewId
    · subst same
      rcases found.symm.trans foundAbove with ⟨⟩
      exact List.Subset.refl _
    · have dirty := Finset.mem_toList.mp
        (framed.found_marked (marks [viewId] (List.nodup_singleton viewId)) found onPath)
      rcases marks [viewId, above] (by simpa using Ne.symm same) with
        ⟨dirtyViews, invalidated, marked⟩
      have stopped : markPath pathAbove (markPath path ∅) = dirtyViews := by
        simpa [DispatchTree.invalidateEntities, DispatchTree.markViewDirty, found, foundAbove]
          using invalidated
      intro view beyond
      unfold viewPathReversed at foundAbove
      split at foundAbove
      next nodeId here =>
        have shows_ := framed.lookedUp above nodeId here
        have all := marked above (by simp) nodeId pathAbove shows_ foundAbove view beyond
        rcases viewsAbove_cons shows_ foundAbove with ⟨back, rfl⟩
        rw [← stopped, markPath, if_pos dirty] at all
        simpa using mem_of_mem_markPath all
      next =>
        cases foundAbove
        cases beyond
  repeated viewId above front back found inFront view beyond := by
    have whole := framed.found_marked (marks [viewId] (List.nodup_singleton viewId)) found
    rw [markPath_repeated (Or.inr inFront)] at whole
    have dirty := whole (List.mem_append_right _ (List.mem_cons_of_mem _ beyond))
    simpa using mem_of_mem_markPath (Finset.mem_toList.mp dirty)

/-- In any frame, marking notified views marks every view above every place of them,
whatever the views and their order, exactly if views are placed alike; and no view that is
marked reuses what it drew. -/
theorem marksAncestors_iff {events : List (FrameTreeEvent L)} {tree : DispatchTree L}
    (run : Run frameStep FrameProtocol new events tree) {B T : Type} [DecidableEq B]
    [DecidableEq T] :
    ((∀ views : List EntityId, views.Nodup → tree.MarksAncestors views) ↔ tree.PlacedAlike) ∧
      ∀ views dirtyViews, tree.invalidateEntities views = some dirtyViews →
        ∀ viewId ∈ dirtyViews, ∀ (elementState : Option (ViewCacheKey B T)) cacheKey refreshing,
          takesReuseBranch viewId elementState cacheKey dirtyViews refreshing = false := by
  have framed := framed_of_run run
  refine ⟨⟨framed.placedAlike, fun alike views _ => framed.marksAncestors alike views⟩, ?_⟩
  intro views dirtyViews _ viewId dirty
  exact takesReuseBranch_of_dirty dirty

/-- A view in a view, under a root. -/
theorem marksAncestors_iff_nested :
    ∃ tree : DispatchTree Nat, tree.Shows 2 8 ∧ tree.viewsAbove 2 = some [8, 7] ∧
      ((∀ views : List EntityId, views.Nodup → tree.MarksAncestors views) ↔
        tree.PlacedAlike) := by
  have run : Run frameStep FrameProtocol (new : DispatchTree Nat)
      [.build .pushNode, .build .pushNode, .build (.setViewId 7), .build .pushNode,
        .build (.setViewId 8), .build .popNode, .build .popNode, .build .popNode] _ :=
    .cons trivial rfl <| .cons trivial rfl <|
      .cons (by intro _ _ active node here; cases active; cases here; rfl) rfl <|
      .cons trivial rfl <|
      .cons (by intro _ _ active node here; cases active; cases here; rfl) rfl <|
      .cons trivial rfl <| .cons trivial rfl <| .cons trivial rfl .nil
  exact ⟨_, ⟨_, rfl, rfl⟩, rfl, (marksAncestors_iff run (B := Nat) (T := Nat)).1⟩

/-- One view in two others: only the other at its last place is marked. -/
theorem exists_ancestor_unmarked :
    ¬ ∀ (events : List (FrameTreeEvent Nat)) (tree : DispatchTree Nat),
      Run frameStep FrameProtocol new events tree →
        ∀ views : List EntityId, views.Nodup → tree.MarksAncestors views := by
  intro marks
  have run : Run frameStep FrameProtocol (new : DispatchTree Nat)
      [.build .pushNode, .build (.setViewId 1), .build .pushNode, .build (.setViewId 3),
        .build .popNode, .build .popNode, .build .pushNode, .build (.setViewId 2),
        .build .pushNode, .build (.setViewId 3)] _ :=
    .cons trivial rfl <|
      .cons (by intro _ _ active node here; cases active; cases here; rfl) rfl <|
      .cons trivial rfl <|
      .cons (by intro _ _ active node here; cases active; cases here; rfl) rfl <|
      .cons trivial rfl <| .cons trivial rfl <| .cons trivial rfl <|
      .cons (by intro _ _ active node here; cases active; cases here; rfl) rfl <|
      .cons trivial rfl <|
      .cons (by intro _ _ active node here; cases active; cases here; rfl) rfl .nil
  obtain ⟨dirtyViews, invalidated, marked⟩ := marks _ _ run [3] (List.nodup_singleton 3)
  have walked : markPath [3, 2] ∅ = dirtyViews := Option.some.inj invalidated
  have above := marked 3 List.mem_cons_self 1 [3, 1] ⟨_, rfl, rfl⟩ rfl 1 (by simp)
  rw [← walked] at above
  exact absurd above (by decide)

end DispatchTree

end Gpui
