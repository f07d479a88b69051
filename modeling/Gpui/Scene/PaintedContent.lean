import Gpui.Scene.MovedBatches

/-!
# Content under a content mask

What an element paints is a tree of primitives, layers and content masks.  The window hands a
primitive the mask that is current, and intersects a mask and the bounds of a layer with it,
so what reaches the scene depends on the mask around the element.

Primitives are in device pixels, layers and masks in pixels.
-/

namespace Gpui

variable {K : Type} [Field K] [LinearOrder K]

/-! ## Rectangles -/

namespace Bounds

/-- `Bounds::contains` -/
def Contains (self : Bounds K) (point : Point K) : Prop :=
  self.origin.x ≤ point.x ∧ point.x < self.bottomRight.x ∧
    self.origin.y ≤ point.y ∧ point.y < self.bottomRight.y

instance (self : Bounds K) (point : Point K) : Decidable (self.Contains point) :=
  inferInstanceAs (Decidable (_ ∧ _ ∧ _ ∧ _))

theorem contains_intersect (first second : Bounds K) (point : Point K) :
    (first.intersect second).Contains point ↔
      first.Contains point ∧ second.Contains point := by
  simp only [Contains, intersect, fromCorners_origin, fromCorners_bottomRight, Point.max_x,
    Point.max_y, Point.min_x, Point.min_y, max_le_iff, lt_min_iff]
  tauto

theorem intersect_eq_left_iff (first second : Bounds K) :
    first.intersect second = first ↔ second.Covers first := by
  constructor
  · intro same
    have origin : first.origin.max second.origin = first.origin := congrArg Bounds.origin same
    have bottomRight : (first.intersect second).bottomRight = first.bottomRight :=
      congrArg Bounds.bottomRight same
    rw [intersect, fromCorners_bottomRight] at bottomRight
    have left := congrArg Point.x origin
    have top := congrArg Point.y origin
    have right := congrArg Point.x bottomRight
    have bottom := congrArg Point.y bottomRight
    rw [Point.max_x, max_eq_left_iff] at left
    rw [Point.max_y, max_eq_left_iff] at top
    rw [Point.min_x, min_eq_left_iff] at right
    rw [Point.min_y, min_eq_left_iff] at bottom
    exact ⟨left, top, right, bottom⟩
  · rintro ⟨left, top, right, bottom⟩
    have origin : first.origin.max second.origin = first.origin := by
      apply Point.eq_of_coordinates
      · rw [Point.max_x, max_eq_left left]
      · rw [Point.max_y, max_eq_left top]
    have corner : first.bottomRight.min second.bottomRight = first.bottomRight := by
      apply Point.eq_of_coordinates
      · rw [Point.min_x, min_eq_left right]
      · rw [Point.min_y, min_eq_left bottom]
    rw [intersect, origin, corner]
    simp only [fromCorners, bottomRight, add_sub_cancel_left]

theorem intersect_comm (first second : Bounds K) :
    first.intersect second = second.intersect first := by
  have origin : first.origin.max second.origin = second.origin.max first.origin := by
    apply Point.eq_of_coordinates
    · rw [Point.max_x, Point.max_x, max_comm]
    · rw [Point.max_y, Point.max_y, max_comm]
  have corner : first.bottomRight.min second.bottomRight =
      second.bottomRight.min first.bottomRight := by
    apply Point.eq_of_coordinates
    · rw [Point.min_x, Point.min_x, min_comm]
    · rw [Point.min_y, Point.min_y, min_comm]
  rw [intersect, intersect, origin, corner]

theorem intersect_self (self : Bounds K) : self.intersect self = self :=
  (intersect_eq_left_iff self self).mpr (Covers.refl self)

section Ordered

variable [IsStrictOrderedRing K]

theorem isEmpty_eq_false_iff (self : Bounds K) :
    self.isEmpty = false ↔
      self.origin.x < self.bottomRight.x ∧ self.origin.y < self.bottomRight.y := by
  simp only [isEmpty, bottomRight, Bool.or_eq_false_iff, decide_eq_false_iff_not, not_le,
    lt_add_iff_pos_right]

theorem Contains.isEmpty_eq_false {self : Bounds K} {point : Point K}
    (contains : self.Contains point) : self.isEmpty = false :=
  (isEmpty_eq_false_iff self).mpr
    ⟨contains.1.trans_lt contains.2.1, contains.2.2.1.trans_lt contains.2.2.2⟩

/-- What is clipped by nothing is nothing. -/
theorem isEmpty_intersect_right {first second : Bounds K} (nothing : second.isEmpty = true) :
    (first.intersect second).isEmpty = true := by
  by_contra notEmpty
  rw [Bool.not_eq_true, isEmpty_eq_false_iff] at notEmpty
  simp only [intersect, fromCorners_origin, fromCorners_bottomRight, Point.max_x, Point.max_y,
    Point.min_x, Point.min_y, max_lt_iff, lt_min_iff] at notEmpty
  have something : second.isEmpty = false :=
    (isEmpty_eq_false_iff second).mpr ⟨notEmpty.1.2.2, notEmpty.2.2.2⟩
  exact Bool.false_ne_true (something.symm.trans nothing)

/-- A rectangle that is not empty lies in another one if all its points do. -/
theorem covers_of_contains {outer inner : Bounds K} (something : inner.isEmpty = false)
    (contains : ∀ point, inner.Contains point → outer.Contains point) :
    outer.Covers inner := by
  rcases (isEmpty_eq_false_iff inner).mp something with ⟨wide, high⟩
  have corner := contains inner.origin ⟨le_rfl, wide, le_rfl, high⟩
  have right : inner.bottomRight.x ≤ outer.bottomRight.x := by
    apply le_of_forall_lt_imp_le_of_dense
    intro x less
    rcases le_total inner.origin.x x with inside | before
    · exact (contains ⟨x, inner.origin.y⟩ ⟨inside, less, le_rfl, high⟩).2.1.le
    · exact before.trans corner.2.1.le
  have bottom : inner.bottomRight.y ≤ outer.bottomRight.y := by
    apply le_of_forall_lt_imp_le_of_dense
    intro y less
    rcases le_total inner.origin.y y with inside | before
    · exact (contains ⟨inner.origin.x, y⟩ ⟨le_rfl, wide, inside, less⟩).2.2.2.le
    · exact before.trans corner.2.2.2.le
  exact ⟨corner.1, corner.2.2.1, right, bottom⟩

omit [IsStrictOrderedRing K] in
theorem Covers.contains {outer inner : Bounds K} (covers : outer.Covers inner)
    {point : Point K} (contains : inner.Contains point) : outer.Contains point :=
  ⟨covers.1.trans contains.1, contains.2.1.trans_le covers.2.2.1,
    covers.2.1.trans contains.2.2.1, contains.2.2.2.trans_le covers.2.2.2⟩

omit [LinearOrder K] [IsStrictOrderedRing K] in
theorem scale_eq_transformBounds (self : Bounds K) (factor : K) :
    self.scale factor = transformBounds self factor ⟨0, 0⟩ := by
  simp only [scale, transformBounds, transformPoint, Point.scale, Size.scale, add_zero]

theorem isEmpty_scale (self : Bounds K) {factor : K} (positive : 0 < factor) :
    (self.scale factor).isEmpty = self.isEmpty := by
  rw [scale_eq_transformBounds, transformBounds_isEmpty positive]

theorem intersect_scale (first second : Bounds K) {factor : K} (positive : 0 < factor) :
    (first.scale factor).intersect (second.scale factor) =
      (first.intersect second).scale factor := by
  simp only [scale_eq_transformBounds, transformBounds_intersect positive]

omit [LinearOrder K] [IsStrictOrderedRing K] in
theorem bottomRight_scale (self : Bounds K) (factor : K) :
    (self.scale factor).bottomRight = self.bottomRight.scale factor := by
  simp only [scale, bottomRight, Point.scale, Size.scale, add_mul]

theorem covers_scale (outer inner : Bounds K) {factor : K} (positive : 0 < factor) :
    (outer.scale factor).Covers (inner.scale factor) ↔ outer.Covers inner := by
  rw [Covers, bottomRight_scale, bottomRight_scale]
  simp only [Covers, scale, Point.scale, mul_le_mul_iff_left₀ positive]

end Ordered

end Bounds

def ContentMask.intersect (self other : ContentMask K) : ContentMask K :=
  ⟨self.bounds.intersect other.bounds⟩

omit [Field K] [LinearOrder K] in
/-- A primitive with the mask that the window gives it. -/
def Primitive.withContentMask (contentMask : ContentMask K) : Primitive K → Primitive K
  | .shadow item => .shadow { item with contentMask }
  | .quad item => .quad { item with contentMask }
  | .path item => .path { item with contentMask }
  | .underline item => .underline { item with contentMask }
  | .monochromeSprite item => .monochromeSprite { item with contentMask }
  | .polychromeSprite item => .polychromeSprite { item with contentMask }
  | .surface item => .surface { item with contentMask }
  | .rasterTile item => .rasterTile { item with contentMask }

/-- The first primitive of a scene. -/
theorem Scene.insertPrimitive_empty {primitive : Primitive K}
    (kept : (Scene.clippedBounds primitive).isEmpty = false) :
    ∃ scene, Scene.empty.insertPrimitive primitive = some scene ∧
      ∀ kind, scene.vector kind =
        if primitive.kind = kind then [primitive.withOrder 1 0] else [] := by
  rcases Option.isSome_iff_exists.mp (rfl : ((BoundsTree.empty : BoundsTree K).insert
    (Scene.clippedBounds primitive)).isSome = true) with ⟨⟨order, tree⟩, inserted⟩
  have isOne : order = 1 := congrArg Prod.fst (Option.some.inj inserted).symm
  subst isOne
  have took : Scene.empty.takeOrder (Scene.clippedBounds primitive) =
      some (1, { Scene.empty with primitiveBounds := tree }) := by
    rw [Scene.takeOrder]
    exact congrArg (Option.bind · _) inserted
  apply Exists.intro _
  constructor
  · exact Scene.insertPrimitive_of_takeOrder kept took
  · intro kind
    rw [Scene.store_vector]
    cases kind <;> rfl

/-- What an element asks the window to paint. -/
inductive PaintedContent (K : Type) where
  | nothing
  | primitive (item : Primitive K) (rest : PaintedContent K)
  /-- `paint_layer` -/
  | layer (bounds : Bounds K) (inside rest : PaintedContent K)
  /-- `with_content_mask` -/
  | masked (contentMask : ContentMask K) (inside rest : PaintedContent K)
deriving DecidableEq, Repr

namespace PaintedContent

/-- Paint into a scene under a content mask. -/
def paint (scaleFactor : K) :
    PaintedContent K → ContentMask K → Scene K → Option (Scene K)
  | nothing, _, scene => some scene
  | primitive item rest, contentMask, scene => do
      let scene ← scene.insertPrimitive
        (item.withContentMask (contentMask.scale scaleFactor))
      rest.paint scaleFactor contentMask scene
  | layer bounds inside rest, contentMask, scene =>
      let clippedBounds := bounds.intersect contentMask.bounds
      if clippedBounds.isEmpty then do
        let scene ← inside.paint scaleFactor contentMask scene
        rest.paint scaleFactor contentMask scene
      else do
        let scene ← scene.pushLayer (clippedBounds.scale scaleFactor)
        let scene ← inside.paint scaleFactor contentMask scene
        rest.paint scaleFactor contentMask scene.popLayer
  | masked mask inside rest, contentMask, scene => do
      let scene ← inside.paint scaleFactor (mask.intersect contentMask) scene
      rest.paint scaleFactor contentMask scene

/-- The operations that painting makes of the scene. -/
def operations (scaleFactor : K) :
    PaintedContent K → ContentMask K → List (PaintOperation K)
  | nothing, _ => []
  | primitive item rest, contentMask =>
      .primitive (item.withContentMask (contentMask.scale scaleFactor)) ::
        rest.operations scaleFactor contentMask
  | layer bounds inside rest, contentMask =>
      let clippedBounds := bounds.intersect contentMask.bounds
      if clippedBounds.isEmpty then
        inside.operations scaleFactor contentMask ++ rest.operations scaleFactor contentMask
      else
        .startLayer (clippedBounds.scale scaleFactor) ::
          (inside.operations scaleFactor contentMask ++
            .endLayer :: rest.operations scaleFactor contentMask)
  | masked mask inside rest, contentMask =>
      inside.operations scaleFactor (mask.intersect contentMask) ++
        rest.operations scaleFactor contentMask

/-- The content under a change of scale and a translation, in pixels. -/
def transformed (scaleFactor scale : K) (translation : Point K) :
    PaintedContent K → PaintedContent K
  | nothing => nothing
  | primitive item rest =>
      .primitive (item.transformed scale (translation.scale scaleFactor))
        (rest.transformed scaleFactor scale translation)
  | layer bounds inside rest =>
      .layer (transformBounds bounds scale translation)
        (inside.transformed scaleFactor scale translation)
        (rest.transformed scaleFactor scale translation)
  | masked mask inside rest =>
      .masked (Primitive.transformMask mask scale translation)
        (inside.transformed scaleFactor scale translation)
        (rest.transformed scaleFactor scale translation)

theorem paint_eq (scaleFactor : K) (content : PaintedContent K) (contentMask : ContentMask K)
    (scene : Scene K) :
    content.paint scaleFactor contentMask scene =
      (content.operations scaleFactor contentMask).foldlM Scene.replayOperation scene := by
  induction content generalizing contentMask scene with
  | nothing => rfl
  | primitive item rest ih =>
      rw [paint, operations, List.foldlM_cons]
      congr 1
      funext painted
      exact ih contentMask painted
  | layer bounds inside rest ihInside ihRest =>
      rw [paint, operations]
      by_cases clipped : (bounds.intersect contentMask.bounds).isEmpty = true
      · simp only [if_pos clipped, List.foldlM_append, ihInside, ihRest]
      · simp only [if_neg clipped, List.foldlM_cons, List.foldlM_append, ihInside, ihRest]
        rfl
  | masked mask inside rest ihInside ihRest =>
      rw [paint, operations, List.foldlM_append, ihInside]
      congr 1
      funext painted
      exact ihRest contentMask painted

/-- Painting never fails. -/
theorem exists_paint (scaleFactor : K) (content : PaintedContent K)
    (contentMask : ContentMask K) :
    ∃ scene, content.paint scaleFactor contentMask Scene.empty = some scene := by
  rw [paint_eq]
  exact Scene.replay_isSome _

omit [Field K] [LinearOrder K] in
@[simp]
theorem bounds_withContentMask (primitive : Primitive K) (contentMask : ContentMask K) :
    (primitive.withContentMask contentMask).bounds = primitive.bounds := by
  cases primitive <;> rfl

omit [Field K] [LinearOrder K] in
@[simp]
theorem contentMask_withContentMask (primitive : Primitive K) (contentMask : ContentMask K) :
    (primitive.withContentMask contentMask).contentMask = contentMask := by
  cases primitive <;> rfl

section Moving

variable [IsStrictOrderedRing K] {scale : K}

/-- Where nothing is visible, nothing is painted. -/
theorem paint_of_isEmpty {scaleFactor : K} (positive : 0 < scaleFactor)
    (content : PaintedContent K) (contentMask : ContentMask K)
    (nothing : contentMask.bounds.isEmpty = true) (scene : Scene K) :
    content.paint scaleFactor contentMask scene = some scene := by
  induction content generalizing contentMask scene with
  | nothing => rfl
  | primitive item rest ih =>
      have clipped : (Scene.clippedBounds (item.withContentMask
          (contentMask.scale scaleFactor))).isEmpty = true := by
        apply Bounds.isEmpty_intersect_right
        rw [contentMask_withContentMask]
        exact (Bounds.isEmpty_scale _ positive).trans nothing
      rw [paint, Scene.insertPrimitive_of_isEmpty clipped]
      exact ih contentMask nothing scene
  | layer bounds inside rest ihInside ihRest =>
      rw [paint]
      simp only [if_pos (Bounds.isEmpty_intersect_right nothing),
        ihInside contentMask nothing]
      exact ihRest contentMask nothing scene
  | masked mask inside rest ihInside ihRest =>
      have hidden : (mask.intersect contentMask).bounds.isEmpty = true :=
        Bounds.isEmpty_intersect_right nothing
      rw [paint, ihInside _ hidden]
      exact ihRest contentMask nothing scene

omit [LinearOrder K] [IsStrictOrderedRing K] in
theorem scale_transformBounds (bounds : Bounds K) (scaleFactor scale : K)
    (translation : Point K) :
    (transformBounds bounds scale translation).scale scaleFactor =
      transformBounds (bounds.scale scaleFactor) scale (translation.scale scaleFactor) := by
  simp only [transformBounds, transformPoint, Bounds.scale, Point.scale, Size.scale,
    Bounds.mk.injEq, Point.mk.injEq, Size.mk.injEq]
  constructor
  · constructor
    · ring
    · ring
  · constructor
    · ring
    · ring

omit [IsStrictOrderedRing K] in
theorem transformed_withContentMask (primitive : Primitive K) (contentMask : ContentMask K)
    (scale : K) (translation : Point K) :
    (primitive.withContentMask contentMask).transformed scale translation =
      (primitive.transformed scale translation).withContentMask
        (Primitive.transformMask contentMask scale translation) := by
  cases primitive <;> rfl

/-- What moved content paints under a moved mask is moved. -/
theorem operations_transformed (scaleFactor : K) (positive : 0 < scale) (translation : Point K)
    (content : PaintedContent K) (contentMask : ContentMask K) :
    (content.transformed scaleFactor scale translation).operations scaleFactor
        (Primitive.transformMask contentMask scale translation) =
      (content.operations scaleFactor contentMask).map
        (PaintOperation.transformed scale (translation.scale scaleFactor)) := by
  induction content generalizing contentMask with
  | nothing => rfl
  | primitive item rest ih =>
      rw [transformed, operations, operations, List.map_cons, ih, PaintOperation.transformed,
        transformed_withContentMask]
      congr 3
      exact congrArg ContentMask.mk (scale_transformBounds _ _ _ _)
  | layer bounds inside rest ihInside ihRest =>
      rw [transformed, operations, operations]
      have clips : (transformBounds bounds scale translation).intersect
          (Primitive.transformMask contentMask scale translation).bounds =
            transformBounds (bounds.intersect contentMask.bounds) scale translation :=
        transformBounds_intersect positive translation _ _
      rw [clips, transformBounds_isEmpty positive, ihInside, ihRest]
      by_cases clipped : (bounds.intersect contentMask.bounds).isEmpty = true
      · simp only [if_pos clipped, List.map_append]
      · simp only [if_neg clipped, List.map_cons, List.map_append, PaintOperation.transformed,
          scale_transformBounds]
  | masked mask inside rest ihInside ihRest =>
      rw [transformed, operations, operations, List.map_append, ihRest, ← ihInside]
      congr 2
      exact congrArg ContentMask.mk (transformBounds_intersect positive translation _ _)

/-- Moved content under a moved mask gives a moved scene. -/
theorem paint_transformed (scaleFactor : K) (positive : 0 < scale) (translation : Point K)
    (content : PaintedContent K) (contentMask : ContentMask K) {scene : Scene K}
    (paints : content.paint scaleFactor contentMask Scene.empty = some scene) :
    ∃ moved, (content.transformed scaleFactor scale translation).paint scaleFactor
        (Primitive.transformMask contentMask scale translation) Scene.empty = some moved ∧
      Scene.Moved scale (translation.scale scaleFactor) scene moved := by
  rw [paint_eq] at paints
  rcases (Scene.moved_empty scale (translation.scale scaleFactor)).replay positive paints with
    ⟨moved, replays, moves⟩
  apply Exists.intro moved
  constructor
  · rw [paint_eq, operations_transformed scaleFactor positive, ← Scene.replayVectorTransform_eq]
    exact replays
  · exact moves

end Moving

end PaintedContent

end Gpui
