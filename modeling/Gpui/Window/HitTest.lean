import Gpui.Scene.Primitive

/-!
# Hit testing

A frame keeps its hitboxes in the order in which they were inserted, so that the last one is
in front.  One scan from the front collects the hitboxes under the mouse, stops behind the
first that blocks the mouse, and counts how many of them are hovered.  Ids are given out in
order and do not wrap.
-/

namespace Gpui

abbrev HitboxId := Nat

/-- How the hitbox affects mouse behavior. -/
inductive HitboxBehavior where
  | normal
  /-- The hitboxes behind are neither hovered nor scrolled. -/
  | blockMouse
  /-- The hitboxes behind are not hovered. -/
  | blockMouseExceptScroll
deriving DecidableEq, Repr

/-- A rectangular region that potentially blocks hitboxes inserted prior. -/
structure Hitbox (K : Type) where
  id : HitboxId
  bounds : Bounds K
  /-- The content mask when the hitbox was inserted. -/
  contentMask : ContentMask K
  behavior : HitboxBehavior

structure HitTest where
  ids : List HitboxId
  hoverHitboxCount : Nat
deriving DecidableEq, Repr

/-- The hitboxes of a frame.  No two of them have the same id. -/
structure FrameHitboxes (K : Type) where
  hitboxes : List (Hitbox K)
  distinct : (hitboxes.map Hitbox.id).Nodup

/-- The hitboxes of the next frame, with the id of the next hitbox. -/
structure HitboxWindow (K : Type) where
  nextFrame : FrameHitboxes K
  nextHitboxId : HitboxId
  fresh : ∀ hitbox ∈ nextFrame.hitboxes, hitbox.id < nextHitboxId

variable {K : Type}

def HitboxWindow.insertHitbox (self : HitboxWindow K) (bounds : Bounds K)
    (contentMask : ContentMask K) (behavior : HitboxBehavior) : Hitbox K × HitboxWindow K :=
  let hitbox := ⟨self.nextHitboxId, bounds, contentMask, behavior⟩
  (hitbox,
    { nextFrame :=
        { hitboxes := self.nextFrame.hitboxes ++ [hitbox]
          distinct := by
            rw [List.map_append, List.nodup_append]
            refine ⟨self.nextFrame.distinct, List.nodup_singleton _, ?_⟩
            intro id member other isNew
            rcases List.mem_map.mp member with ⟨earlier, inserted, rfl⟩
            rw [List.mem_singleton.mp isNew]
            exact (self.fresh earlier inserted).ne }
      nextHitboxId := self.nextHitboxId + 1
      fresh := by
        intro other member
        rcases List.mem_append.mp member with inserted | isNew
        · exact (self.fresh other inserted).trans (Nat.lt_succ_self _)
        · rw [List.mem_singleton.mp isNew]
          exact Nat.lt_succ_self _ })

section Scan

variable [Field K] [LinearOrder K]

def Bounds.contains (self : Bounds K) (point : Point K) : Bool :=
  point.x ≥ self.origin.x
    && point.x < self.origin.x + self.size.width
    && point.y ≥ self.origin.y
    && point.y < self.origin.y + self.size.height

/-- The part of the hitbox that is not masked contains the position. -/
def Hitbox.contains (self : Hitbox K) (position : Point K) : Bool :=
  (self.bounds.intersect self.contentMask.bounds).contains position

/-- The scan over the hitboxes, from the front. -/
def hitTestScan (position : Point K) :
    List (Hitbox K) → HitTest → Bool → HitTest × Bool
  | [], hitTest, setHoverHitboxCount => (hitTest, setHoverHitboxCount)
  | hitbox :: hitboxes, hitTest, setHoverHitboxCount =>
      if hitbox.contains position then
        let hitTest := { hitTest with ids := hitTest.ids ++ [hitbox.id] }
        let sets := !setHoverHitboxCount && hitbox.behavior = .blockMouseExceptScroll
        let hitTest :=
          if sets then { hitTest with hoverHitboxCount := hitTest.ids.length } else hitTest
        if hitbox.behavior = .blockMouse then (hitTest, setHoverHitboxCount || sets)
        else hitTestScan position hitboxes hitTest (setHoverHitboxCount || sets)
      else hitTestScan position hitboxes hitTest setHoverHitboxCount

def FrameHitboxes.hitTest (self : FrameHitboxes K) (position : Point K) : HitTest :=
  let (hitTest, setHoverHitboxCount) :=
    hitTestScan position self.hitboxes.reverse ⟨[], 0⟩ false
  if setHoverHitboxCount then hitTest
  else { hitTest with hoverHitboxCount := hitTest.ids.length }

end Scan

namespace HitTest

/-- `HitboxId::is_hovered`. -/
def isHovered (self : HitTest) (id : HitboxId) : Bool :=
  (self.ids.take self.hoverHitboxCount).contains id

def shouldHandleScroll (self : HitTest) (id : HitboxId) : Bool :=
  self.ids.contains id

end HitTest

/-! ## What the scan collects -/

/-- A list up to its first item that stops it, which is kept. -/
def takeThrough {α : Type} (stops : α → Bool) : List α → List α
  | [] => []
  | item :: items => if stops item then [item] else item :: takeThrough stops items

theorem takeThrough_sublist {α : Type} (stops : α → Bool) (items : List α) :
    (takeThrough stops items).Sublist items := by
  induction items with
  | nil => exact List.Sublist.slnil
  | cons item items ih =>
      rw [takeThrough]
      split
      next => exact List.singleton_sublist.mpr List.mem_cons_self
      next => exact ih.cons_cons item

/-- An item is kept if nothing before it stops. -/
theorem mem_takeThrough {α : Type} {stops : α → Bool} {front back : List α} {item : α}
    (absent : item ∉ front) :
    item ∈ takeThrough stops (front ++ item :: back) ↔ ∀ other ∈ front, stops other = false := by
  induction front with
  | nil =>
      rw [List.nil_append, takeThrough]
      constructor
      · intro _ other member
        cases member
      · intro _
        split <;> exact List.mem_cons_self
  | cons first front ih =>
      rw [List.mem_cons, not_or] at absent
      rw [List.cons_append, takeThrough, List.forall_mem_cons, ← ih absent.2]
      by_cases stop : stops first = true
      · simp [stop, absent.1]
      · simp [stop, absent.1]

def HitboxBehavior.blocksScroll (self : HitboxBehavior) : Bool :=
  self = .blockMouse

def HitboxBehavior.blocksHover (self : HitboxBehavior) : Bool :=
  self = .blockMouse || self = .blockMouseExceptScroll

section Scan

variable [Field K] [LinearOrder K] {position : Point K} {hitboxes : List (Hitbox K)}

def underMouse (position : Point K) (hitboxes : List (Hitbox K)) : List (Hitbox K) :=
  hitboxes.filter fun hitbox => hitbox.contains position

theorem underMouse_cons_of_pos {hitbox : Hitbox K} (contained : hitbox.contains position = true) :
    underMouse position (hitbox :: hitboxes) = hitbox :: underMouse position hitboxes :=
  List.filter_cons_of_pos contained

theorem underMouse_cons_of_neg {hitbox : Hitbox K}
    (contained : ¬ hitbox.contains position = true) :
    underMouse position (hitbox :: hitboxes) = underMouse position hitboxes :=
  List.filter_cons_of_neg contained

variable (position hitboxes) in
theorem hitTestScan_ids (hitTest : HitTest) (set : Bool) :
    (hitTestScan position hitboxes hitTest set).1.ids =
      hitTest.ids ++ (takeThrough (fun hitbox => hitbox.behavior.blocksScroll)
        (underMouse position hitboxes)).map Hitbox.id := by
  induction hitboxes generalizing hitTest set with
  | nil => exact (List.append_nil _).symm
  | cons hitbox hitboxes ih =>
      rw [hitTestScan]
      by_cases contained : hitbox.contains position = true
      · rw [if_pos contained, underMouse_cons_of_pos contained, takeThrough]
        cases behavior : hitbox.behavior with
        | blockMouse => simp [HitboxBehavior.blocksScroll]
        | blockMouseExceptScroll => cases set <;> simp [HitboxBehavior.blocksScroll, ih]
        | normal => simp [HitboxBehavior.blocksScroll, ih]
      · rw [if_neg contained, underMouse_cons_of_neg contained]
        exact ih hitTest set

variable (position hitboxes) in
/-- Once it is set, the count stays. -/
theorem hitTestScan_set (hitTest : HitTest) :
    (hitTestScan position hitboxes hitTest true).1.hoverHitboxCount =
        hitTest.hoverHitboxCount ∧
      (hitTestScan position hitboxes hitTest true).2 = true := by
  induction hitboxes generalizing hitTest with
  | nil => exact ⟨rfl, rfl⟩
  | cons hitbox hitboxes ih =>
      rw [hitTestScan]
      split
      next =>
        dsimp only [Bool.not_true, Bool.false_and, Bool.true_or]
        split
        next => exact ⟨rfl, rfl⟩
        next => exact ih _
      next => exact ih _

variable (position hitboxes) in
/-- The hovered ids end with the first hitbox that blocks hovering. -/
theorem hitTestScan_hovered (hitTest : HitTest) :
    let scanned := hitTestScan position hitboxes hitTest false
    scanned.1.ids.take (if scanned.2 then scanned.1.hoverHitboxCount else scanned.1.ids.length) =
      hitTest.ids ++ (takeThrough (fun hitbox => hitbox.behavior.blocksHover)
        (underMouse position hitboxes)).map Hitbox.id := by
  induction hitboxes generalizing hitTest with
  | nil => simp [hitTestScan, underMouse, takeThrough]
  | cons hitbox hitboxes ih =>
      rw [hitTestScan]
      by_cases contained : hitbox.contains position = true
      · rw [if_pos contained, underMouse_cons_of_pos contained, takeThrough]
        cases behavior : hitbox.behavior with
        | blockMouse => simp [HitboxBehavior.blocksHover]
        | blockMouseExceptScroll =>
            have kept := hitTestScan_set position hitboxes
              ⟨hitTest.ids ++ [hitbox.id], (hitTest.ids ++ [hitbox.id]).length⟩
            have ids := hitTestScan_ids position hitboxes
              ⟨hitTest.ids ++ [hitbox.id], (hitTest.ids ++ [hitbox.id]).length⟩ true
            simp only [HitboxBehavior.blocksHover, Bool.not_false, Bool.true_and, decide_true,
              Bool.false_or, reduceCtorEq, if_true, if_false, decide_false]
            rw [kept.1, kept.2, if_pos rfl, ids, List.take_left, List.map_singleton]
        | normal =>
            have rest := ih ⟨hitTest.ids ++ [hitbox.id], hitTest.hoverHitboxCount⟩
            simpa [HitboxBehavior.blocksHover] using rest
      · rw [if_neg contained, underMouse_cons_of_neg contained]
        exact ih hitTest

/-- A hitbox is kept if it is under the mouse and nothing under the mouse in front stops. -/
theorem mem_map_takeThrough {stops : Hitbox K → Bool} {earlier later : List (Hitbox K)}
    {hitbox : Hitbox K} (distinct : (hitboxes.map Hitbox.id).Nodup)
    (split : hitboxes = earlier ++ hitbox :: later) :
    hitbox.id ∈ (takeThrough stops (underMouse position hitboxes.reverse)).map Hitbox.id ↔
      hitbox.contains position = true ∧
        ∀ other ∈ later, other.contains position = true → stops other = false := by
  subst split
  have same : hitbox.id ∈ (takeThrough stops
      (underMouse position (earlier ++ hitbox :: later).reverse)).map Hitbox.id ↔
        hitbox ∈ takeThrough stops (underMouse position (earlier ++ hitbox :: later).reverse) := by
    constructor
    · intro member
      rcases List.mem_map.mp member with ⟨other, kept, sameId⟩
      have among := List.mem_of_mem_filter ((takeThrough_sublist _ _).subset kept)
      rw [List.mem_reverse] at among
      have isOther := List.inj_on_of_nodup_map distinct among
        (List.mem_append_right _ List.mem_cons_self) sameId
      exact isOther ▸ kept
    · exact List.mem_map_of_mem
  have absent : hitbox ∉ later := by
    intro member
    rw [List.map_append, List.map_cons] at distinct
    have front := (List.nodup_cons.mp (List.nodup_append.mp distinct).2.1).1
    exact front (List.mem_map_of_mem member)
  have front : underMouse position (earlier ++ hitbox :: later).reverse =
      underMouse position later.reverse ++
        underMouse position (hitbox :: earlier.reverse) := by
    rw [List.reverse_append, List.reverse_cons, List.append_assoc, underMouse,
      List.filter_append]
    rfl
  rw [same, front]
  by_cases contained : hitbox.contains position = true
  · rw [underMouse_cons_of_pos contained, mem_takeThrough]
    · simp [underMouse, contained]
    · intro member
      exact absent (List.mem_reverse.mp (List.mem_of_mem_filter member))
  · refine iff_of_false ?_ fun both => contained both.1
    intro member
    have kept := (takeThrough_sublist _ _).subset member
    rw [underMouse, underMouse, ← List.filter_append] at kept
    exact contained (List.mem_filter.mp kept).2

namespace FrameHitboxes

theorem hitTest_ids (self : FrameHitboxes K) (position : Point K) :
    (self.hitTest position).ids =
      (takeThrough (fun hitbox => hitbox.behavior.blocksScroll)
        (underMouse position self.hitboxes.reverse)).map Hitbox.id := by
  have scanned := hitTestScan_ids position self.hitboxes.reverse ⟨[], 0⟩ false
  rw [hitTest]
  dsimp only
  split <;> exact scanned

theorem hitTest_hovered (self : FrameHitboxes K) (position : Point K) :
    (self.hitTest position).ids.take (self.hitTest position).hoverHitboxCount =
      (takeThrough (fun hitbox => hitbox.behavior.blocksHover)
        (underMouse position self.hitboxes.reverse)).map Hitbox.id := by
  have scanned := hitTestScan_hovered position self.hitboxes.reverse ⟨[], 0⟩
  dsimp only at scanned
  rw [hitTest]
  dsimp only
  split
  next set => rwa [if_pos set] at scanned
  next set => rwa [if_neg set] at scanned

/-- A hitbox is hovered, or scrolled, if it is under the mouse and no later one under the
mouse blocks that. -/
theorem hitTest_iff (self : FrameHitboxes K) (position : Point K)
    (index : Fin self.hitboxes.length) :
    ((self.hitTest position).isHovered self.hitboxes[index].id = true ↔
        self.hitboxes[index].contains position = true ∧
          ∀ later : Fin self.hitboxes.length, index < later →
            self.hitboxes[later].contains position = true →
              self.hitboxes[later].behavior ≠ .blockMouse ∧
                self.hitboxes[later].behavior ≠ .blockMouseExceptScroll) ∧
      ((self.hitTest position).shouldHandleScroll self.hitboxes[index].id = true ↔
        self.hitboxes[index].contains position = true ∧
          ∀ later : Fin self.hitboxes.length, index < later →
            self.hitboxes[later].contains position = true →
              self.hitboxes[later].behavior ≠ .blockMouse) := by
  have split : self.hitboxes = self.hitboxes.take index ++
      self.hitboxes[index] :: self.hitboxes.drop (index + 1) := by
    rw [Fin.getElem_fin, List.getElem_cons_drop, List.take_append_drop]
  have laterIff : ∀ blocked : Hitbox K → Prop,
      (∀ other ∈ self.hitboxes.drop (index + 1), other.contains position = true → blocked other) ↔
        ∀ later : Fin self.hitboxes.length, index < later →
          self.hitboxes[later].contains position = true → blocked self.hitboxes[later] := by
    intro blocked
    constructor
    · intro all later behind
      apply all
      rw [List.mem_drop_iff_getElem]
      refine ⟨later - (index + 1), ?_, ?_⟩
      · omega
      · congr 1
        omega
    · intro all other member
      rcases List.mem_drop_iff_getElem.mp member with ⟨offset, bound, rfl⟩
      have there := all ⟨offset + (index + 1), bound⟩ (Fin.lt_def.mpr (Nat.le_add_left _ _))
      simpa only [Fin.getElem_fin, Nat.add_comm offset] using there
  constructor
  · rw [HitTest.isHovered, hitTest_hovered, List.contains_iff_mem,
      mem_map_takeThrough self.distinct split,
      laterIff fun other => other.behavior.blocksHover = false]
    simp [HitboxBehavior.blocksHover]
  · rw [HitTest.shouldHandleScroll, hitTest_ids, List.contains_iff_mem,
      mem_map_takeThrough self.distinct split,
      laterIff fun other => other.behavior.blocksScroll = false]
    simp [HitboxBehavior.blocksScroll]

end FrameHitboxes

end Scan

end Gpui
