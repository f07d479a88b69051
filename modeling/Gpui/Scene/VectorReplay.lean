import Gpui.BoundsTree.Image
import Gpui.BoundsTree.Ordering
import Gpui.Scene.Log

/-!
# Replaying a transformed scene

A transform with a positive factor changes neither what is clipped away nor which
rectangles overlap, so the operations of a scene, transformed, build the transformed
scene with the same draw orders; and transforms compose.
-/

namespace Gpui

variable {K : Type} [Field K] [LinearOrder K]

namespace TransformationMatrix

/-- Apply the transformation to a point. -/
def apply (self : TransformationMatrix K) (point : Point K) : Point K where
  x := self.translation.1 + self.rotationScale.1.1 * point.x + self.rotationScale.1.2 * point.y
  y := self.translation.2 + self.rotationScale.2.1 * point.x + self.rotationScale.2.2 * point.y

/-- The case of the unit matrix is a shortcut. -/
theorem compose_eq (self other : TransformationMatrix K) :
    self.compose other =
      { rotationScale :=
          ((self.rotationScale.1.1 * other.rotationScale.1.1
                + self.rotationScale.1.2 * other.rotationScale.2.1,
              self.rotationScale.1.1 * other.rotationScale.1.2
                + self.rotationScale.1.2 * other.rotationScale.2.2),
            (self.rotationScale.2.1 * other.rotationScale.1.1
                + self.rotationScale.2.2 * other.rotationScale.2.1,
              self.rotationScale.2.1 * other.rotationScale.1.2
                + self.rotationScale.2.2 * other.rotationScale.2.2))
        translation :=
          (self.translation.1
              + self.rotationScale.1.1 * other.translation.1
              + self.rotationScale.1.2 * other.translation.2,
            self.translation.2
              + self.rotationScale.2.1 * other.translation.1
              + self.rotationScale.2.2 * other.translation.2) } := by
  rw [compose]
  split
  next isUnit =>
    rw [isUnit]
    simp [unit]
  next => rfl

end TransformationMatrix

namespace Primitive

theorem conjugate_eq (matrix : TransformationMatrix K) {scale : K} (nonzero : scale ≠ 0)
    (translation : Point K) :
    conjugate matrix scale translation =
      { rotationScale := matrix.rotationScale
        translation :=
          (translation.x + scale * matrix.translation.1
              - matrix.rotationScale.1.1 * translation.x
              - matrix.rotationScale.1.2 * translation.y,
            translation.y + scale * matrix.translation.2
              - matrix.rotationScale.2.1 * translation.x
              - matrix.rotationScale.2.2 * translation.y) } := by
  simp only [conjugate, TransformationMatrix.compose_eq, TransformationMatrix.mk.injEq,
    Prod.ext_iff]
  refine ⟨⟨⟨?_, ?_⟩, ?_, ?_⟩, ?_, ?_⟩
  all_goals
    field_simp
    ring

/-- The conjugated matrix does to the image of a point what the matrix does to the point. -/
theorem conjugate_apply (matrix : TransformationMatrix K) {scale : K} (nonzero : scale ≠ 0)
    (translation point : Point K) :
    (conjugate matrix scale translation).apply (transformPoint point scale translation) =
      transformPoint (matrix.apply point) scale translation := by
  rw [conjugate_eq matrix nonzero]
  simp only [TransformationMatrix.apply, transformPoint, Point.mk.injEq]
  constructor
  · ring
  · ring

end Primitive

/-! ## What a transform does -/

namespace Primitive

/-- Radii, widths and thicknesses. -/
def lengths : Primitive K → List K
  | .shadow item =>
      [item.blurRadius, item.cornerRadii.topLeft, item.cornerRadii.topRight,
        item.cornerRadii.bottomRight, item.cornerRadii.bottomLeft]
  | .quad item =>
      [item.cornerRadii.topLeft, item.cornerRadii.topRight, item.cornerRadii.bottomRight,
        item.cornerRadii.bottomLeft, item.borderWidths.top, item.borderWidths.right,
        item.borderWidths.bottom, item.borderWidths.left]
  | .underline item => [item.thickness]
  | .polychromeSprite item =>
      [item.cornerRadii.topLeft, item.cornerRadii.topRight, item.cornerRadii.bottomRight,
        item.cornerRadii.bottomLeft]
  | _ => []

/-- Vertices, and the points a path is drawn between. -/
def points : Primitive K → List (Point K)
  | .path item => item.start :: item.current :: item.vertices.map PathVertex.xyPosition
  | _ => []

/-- The bounds and every content mask. -/
def rectangles : Primitive K → List (Bounds K)
  | .path item =>
      item.bounds :: item.contentMask.bounds ::
        item.vertices.map fun vertex => vertex.contentMask.bounds
  | primitive => [primitive.bounds, primitive.contentMask.bounds]

def matrix : Primitive K → Option (TransformationMatrix K)
  | .shadow item => some item.transformation
  | .quad item => some item.transformation
  | .monochromeSprite item => some item.transformation
  | .polychromeSprite item => some item.transformation
  | _ => none

/-- The second primitive is the image of the first under `x ↦ scale * x + translation`. -/
structure IsImage (scale : K) (translation : Point K) (primitive image : Primitive K) : Prop where
  kind : image.kind = primitive.kind
  order : image.order = primitive.order
  tile : image.tile = primitive.tile
  corners : image.rectangles.map (fun bounds => (bounds.origin, bounds.bottomRight)) =
    primitive.rectangles.map fun bounds =>
      (transformPoint bounds.origin scale translation,
        transformPoint bounds.bottomRight scale translation)
  points : image.points = primitive.points.map (transformPoint · scale translation)
  lengths : image.lengths = primitive.lengths.map (scale * ·)
  matrix : ∀ point,
    image.matrix.map (fun matrix => matrix.apply (transformPoint point scale translation)) =
      primitive.matrix.map fun matrix => transformPoint (matrix.apply point) scale translation

end Primitive

/-! ## Rectangles -/

omit [Field K] [LinearOrder K] in
theorem Point.eq_of_coordinates {first second : Point K} (x : first.x = second.x)
    (y : first.y = second.y) : first = second := by
  cases first
  cases second
  cases x
  cases y
  rfl

section Rectangles

omit [LinearOrder K] in
theorem transformBounds_bottomRight (bounds : Bounds K) (scale : K) (translation : Point K) :
    (transformBounds bounds scale translation).bottomRight =
      transformPoint bounds.bottomRight scale translation := by
  simp only [transformBounds, transformPoint, Bounds.bottomRight, Point.mk.injEq]
  constructor
  · ring
  · ring

omit [LinearOrder K] in
theorem fromCorners_transformPoint (topLeft bottomRight : Point K) (scale : K)
    (translation : Point K) :
    Bounds.fromCorners (transformPoint topLeft scale translation)
        (transformPoint bottomRight scale translation) =
      transformBounds (.fromCorners topLeft bottomRight) scale translation := by
  simp only [Bounds.fromCorners, transformBounds, transformPoint, Bounds.mk.injEq, Size.mk.injEq,
    true_and]
  constructor
  · ring
  · ring

variable [IsStrictOrderedRing K] {scale : K}

theorem transformPoint_max (positive : 0 < scale) (translation first second : Point K) :
    (transformPoint first scale translation).max (transformPoint second scale translation) =
      transformPoint (first.max second) scale translation := by
  have scaled : ∀ a b offset : K,
      max (a * scale + offset) (b * scale + offset) = max a b * scale + offset := by
    intro a b offset
    rw [max_add_add_right, max_mul_of_nonneg _ _ positive.le]
  apply Point.eq_of_coordinates
  · simp only [Point.max_x, transformPoint, scaled]
  · simp only [Point.max_y, transformPoint, scaled]

theorem transformPoint_min (positive : 0 < scale) (translation first second : Point K) :
    (transformPoint first scale translation).min (transformPoint second scale translation) =
      transformPoint (first.min second) scale translation := by
  have scaled : ∀ a b offset : K,
      min (a * scale + offset) (b * scale + offset) = min a b * scale + offset := by
    intro a b offset
    rw [min_add_add_right, min_mul_of_nonneg _ _ positive.le]
  apply Point.eq_of_coordinates
  · simp only [Point.min_x, transformPoint, scaled]
  · simp only [Point.min_y, transformPoint, scaled]

theorem transformBounds_intersect (positive : 0 < scale) (translation : Point K)
    (first second : Bounds K) :
    (transformBounds first scale translation).intersect
        (transformBounds second scale translation) =
      transformBounds (first.intersect second) scale translation := by
  rw [Bounds.intersect, transformBounds_bottomRight, transformBounds_bottomRight,
    transformPoint_min positive, Bounds.intersect, ← fromCorners_transformPoint]
  congr 1
  exact transformPoint_max positive translation first.origin second.origin

theorem transformBounds_isEmpty (positive : 0 < scale) (translation : Point K) (bounds : Bounds K) :
    (transformBounds bounds scale translation).isEmpty = bounds.isEmpty := by
  have nonpositive : ∀ length : K, length * scale ≤ 0 ↔ length ≤ 0 := by
    intro length
    rw [← zero_mul scale, mul_le_mul_iff_left₀ positive, zero_mul]
  simp only [Bounds.isEmpty, transformBounds, nonpositive]

/-- The bounds tree does not notice a transform. -/
theorem transformBounds_respects (positive : 0 < scale) (translation : Point K) :
    BoundsTree.Respects fun bounds : Bounds K => transformBounds bounds scale translation where
  union first second := by
    rw [Bounds.union, transformBounds_bottomRight, transformBounds_bottomRight,
      transformPoint_max positive, Bounds.union, ← fromCorners_transformPoint]
    congr 1
    exact transformPoint_min positive translation first.origin second.origin
  intersects first second := by
    have less : ∀ a b offset : K, a * scale + offset < b * scale + offset ↔ a < b := by
      intro a b offset
      rw [add_lt_add_iff_right, mul_lt_mul_iff_left₀ positive]
    rw [Bool.eq_iff_iff, Bounds.intersects_iff, Bounds.intersects_iff,
      transformBounds_bottomRight, transformBounds_bottomRight]
    simp only [transformBounds, transformPoint, less]
  halfPerimeter_lt first second := by
    simp only [Bounds.halfPerimeter, transformBounds]
    rw [← add_mul, ← add_mul, mul_lt_mul_iff_left₀ positive]

end Rectangles

/-! ## Primitives -/

namespace Primitive

omit [LinearOrder K] in
theorem transformPoint_transformPoint (point : Point K) (scale scale' : K)
    (translation translation' : Point K) :
    transformPoint (transformPoint point scale translation) scale' translation' =
      transformPoint point (scale' * scale) (transformPoint translation scale' translation') := by
  simp only [transformPoint, Point.mk.injEq]
  constructor
  · ring
  · ring

omit [LinearOrder K] in
theorem transformBounds_transformBounds (bounds : Bounds K) (scale scale' : K)
    (translation translation' : Point K) :
    transformBounds (transformBounds bounds scale translation) scale' translation' =
      transformBounds bounds (scale' * scale)
        (transformPoint translation scale' translation') := by
  rw [transformBounds, transformBounds, transformPoint_transformPoint]
  simp only [transformBounds, Bounds.mk.injEq, Size.mk.injEq, true_and]
  constructor
  · ring
  · ring

omit [LinearOrder K] in
theorem transformMask_transformMask (mask : ContentMask K) (scale scale' : K)
    (translation translation' : Point K) :
    transformMask (transformMask mask scale translation) scale' translation' =
      transformMask mask (scale' * scale) (transformPoint translation scale' translation') := by
  simp only [transformMask, transformBounds_transformBounds]

omit [LinearOrder K] in
theorem transformCorners_transformCorners (corners : Corners K) (scale scale' : K) :
    transformCorners (transformCorners corners scale) scale' =
      transformCorners corners (scale' * scale) := by
  simp only [transformCorners, mul_assoc, mul_comm scale]

theorem conjugate_conjugate (matrix : TransformationMatrix K) {scale scale' : K}
    (nonzero : scale ≠ 0) (nonzero' : scale' ≠ 0) (translation translation' : Point K) :
    conjugate (conjugate matrix scale translation) scale' translation' =
      conjugate matrix (scale' * scale) (transformPoint translation scale' translation') := by
  rw [conjugate_eq _ nonzero', conjugate_eq _ nonzero, conjugate_eq _ (mul_ne_zero nonzero' nonzero)]
  simp only [transformPoint, TransformationMatrix.mk.injEq, Prod.mk.injEq, true_and]
  constructor
  · ring
  · ring

theorem transformed_transformed (primitive : Primitive K) {scale scale' : K}
    (nonzero : scale ≠ 0) (nonzero' : scale' ≠ 0) (translation translation' : Point K) :
    (primitive.transformed scale translation).transformed scale' translation' =
      primitive.transformed (scale' * scale) (transformPoint translation scale' translation') := by
  have associated : ∀ length : K, length * scale * scale' = length * (scale' * scale) := by
    intro length
    ring
  cases primitive <;>
    simp only [transformed, transformBounds_transformBounds, transformMask_transformMask,
      transformCorners_transformCorners, transformPoint_transformPoint,
      conjugate_conjugate _ nonzero nonzero', associated, List.map_map, Function.comp_def]

theorem isImage_transformed {scale : K} (nonzero : scale ≠ 0) (translation : Point K)
    (primitive : Primitive K) :
    IsImage scale translation primitive (primitive.transformed scale translation) where
  kind := by cases primitive <;> rfl
  order := by cases primitive <;> rfl
  tile := by cases primitive <;> rfl
  corners := by
    cases primitive <;>
      simp only [transformed, rectangles, bounds, contentMask, transformMask, List.map_cons,
        List.map_nil, List.map_map, Function.comp_def, transformBounds_bottomRight] <;> rfl
  points := by
    cases primitive <;> simp [transformed, points]
  lengths := by
    cases primitive <;> simp [transformed, lengths, transformCorners, mul_comm]
  matrix point := by
    cases primitive <;> simp [transformed, matrix, conjugate_apply _ nonzero]

end Primitive

/-! ## Scenes -/

namespace Primitive

theorem transformed_withOrder (primitive : Primitive K) (scale : K) (translation : Point K)
    (order : DrawOrder) (pathId : Nat) :
    (primitive.transformed scale translation).withOrder order pathId =
      (primitive.withOrder order pathId).transformed scale translation := by
  cases primitive <;> rfl

theorem transformed_kind (primitive : Primitive K) (scale : K) (translation : Point K) :
    (primitive.transformed scale translation).kind = primitive.kind := by
  cases primitive <;> rfl

end Primitive

namespace Scene

/-- Every operation of a replay succeeds. -/
theorem replayOperation_isSome {scene : Scene K} {entries : List (BoundsTree.Entry K)}
    (represents : BoundsTree.Represents scene.primitiveBounds entries)
    (operation : PaintOperation K) :
    ∃ next more, scene.replayOperation operation = some next ∧
      BoundsTree.Represents next.primitiveBounds more := by
  cases operation with
  | primitive primitive =>
      cases clipped : (clippedBounds primitive).isEmpty with
      | true => exact ⟨scene, entries, insertPrimitive_of_isEmpty clipped, represents⟩
      | false =>
          cases open? : scene.layerStack.getLast? with
          | some order =>
              have took : scene.takeOrder (clippedBounds primitive) = some (order, scene) := by
                rw [takeOrder, open?]
              refine ⟨_, entries, insertPrimitive_of_takeOrder clipped took, ?_⟩
              rw [store_primitiveBounds]
              exact represents
          | none =>
              rcases BoundsTree.insert_spec represents (clippedBounds primitive) with
                ⟨tree, inserted, represents'⟩
              generalize BoundsTree.overlapMax (clippedBounds primitive) entries + 1 = order
                at inserted represents'
              have took : scene.takeOrder (clippedBounds primitive) =
                  some (order, { scene with primitiveBounds := tree }) := by
                rw [takeOrder, open?, inserted]
                rfl
              refine ⟨_, entries ++ [(clippedBounds primitive, order)],
                insertPrimitive_of_takeOrder clipped took, ?_⟩
              rw [store_primitiveBounds]
              exact represents'
  | startLayer bounds =>
      rcases BoundsTree.insert_spec represents bounds with ⟨tree, inserted, represents'⟩
      have pushes : scene.pushLayer bounds = _ :=
        Option.bind_eq_some_iff.mpr ⟨_, inserted, rfl⟩
      exact ⟨_, _, pushes, represents'⟩
  | endLayer => exact ⟨scene.popLayer, entries, rfl, represents⟩

theorem replay_isSome (operations : List (PaintOperation K)) :
    ∃ scene, operations.foldlM replayOperation empty = some scene := by
  have start : BoundsTree.Represents (empty : Scene K).primitiveBounds [] :=
    BoundsTree.represents_empty
  generalize (empty : Scene K) = scene, [] = entries at start
  induction operations generalizing scene entries with
  | nil => exact ⟨scene, rfl⟩
  | cons operation operations ih =>
      rcases replayOperation_isSome start operation with ⟨next, more, replays, represents⟩
      rcases ih next more represents with ⟨last, rest⟩
      refine ⟨last, ?_⟩
      rw [List.foldlM_cons, replays]
      exact rest

/-- The second scene is the first one, transformed. -/
structure Moved (scale : K) (translation : Point K) (scene moved : Scene K) : Prop where
  paintOperations : moved.paintOperations =
    scene.paintOperations.map (.transformed scale translation)
  primitiveBounds : moved.primitiveBounds =
    scene.primitiveBounds.image fun bounds => transformBounds bounds scale translation
  layerStack : moved.layerStack = scene.layerStack
  vector : ∀ kind, moved.vector kind =
    (scene.vector kind).map fun primitive => primitive.transformed scale translation

theorem moved_empty (scale : K) (translation : Point K) : Moved scale translation empty empty where
  paintOperations := rfl
  primitiveBounds := rfl
  layerStack := rfl
  vector kind := by cases kind <;> rfl

section Moving

variable {scale : K} {translation : Point K} {scene moved next : Scene K}

theorem Moved.length_paths (moves : Moved scale translation scene moved) :
    moved.paths.length = scene.paths.length := by
  have counts : ∀ scene : Scene K, scene.paths.length = (scene.vector .path).length :=
    fun scene => (List.length_map _).symm
  rw [counts, counts, moves.vector, List.length_map]

theorem Moved.logOperation (moves : Moved scale translation scene moved)
    (operation : PaintOperation K) :
    Moved scale translation (scene.logOperation operation)
      (moved.logOperation (operation.transformed scale translation)) where
  paintOperations := by
    rw [Scene.logOperation, Scene.logOperation, List.map_append, ← moves.paintOperations]
    rfl
  primitiveBounds := moves.primitiveBounds
  layerStack := moves.layerStack
  vector kind := by
    rw [logOperation_vector, logOperation_vector, moves.vector]

theorem Moved.reorder (moves : Moved scale translation scene moved) (tree : BoundsTree K)
    {orders orders' : List DrawOrder} (same : orders' = orders) :
    Moved scale translation { scene with primitiveBounds := tree, layerStack := orders }
      { moved with
        primitiveBounds := tree.image fun bounds => transformBounds bounds scale translation
        layerStack := orders' } where
  paintOperations := moves.paintOperations
  primitiveBounds := rfl
  layerStack := same
  vector kind := by
    have vectors := moves.vector kind
    cases kind <;> exact vectors

theorem Moved.push (moves : Moved scale translation scene moved) (primitive : Primitive K) :
    Moved scale translation (scene.push primitive)
      (moved.push (primitive.transformed scale translation)) where
  paintOperations := by
    rw [push_paintOperations, push_paintOperations, moves.paintOperations]
  primitiveBounds := by
    rw [push_primitiveBounds, push_primitiveBounds, moves.primitiveBounds]
  layerStack := by
    rw [push_layerStack, push_layerStack, moves.layerStack]
  vector kind := by
    rw [push_vector, push_vector, moves.vector, Primitive.transformed_kind, List.map_append]
    congr 1
    split
    · rfl
    · rfl

theorem Moved.store (moves : Moved scale translation scene moved) (order : DrawOrder)
    (primitive : Primitive K) :
    Moved scale translation (scene.store order primitive)
      (moved.store order (primitive.transformed scale translation)) := by
  rw [Scene.store, Scene.store, Primitive.transformed_withOrder, moves.length_paths]
  exact (moves.push _).logOperation (.primitive _)

variable [IsStrictOrderedRing K]

theorem clippedBounds_transformed (positive : 0 < scale) (translation : Point K)
    (primitive : Primitive K) :
    clippedBounds (primitive.transformed scale translation) =
      transformBounds (clippedBounds primitive) scale translation := by
  cases primitive <;> exact transformBounds_intersect positive translation _ _

theorem Moved.insert (positive : 0 < scale) (moves : Moved scale translation scene moved)
    (bounds : Bounds K) {order : DrawOrder} {tree : BoundsTree K}
    (inserted : scene.primitiveBounds.insert bounds = some (order, tree)) :
    moved.primitiveBounds.insert (transformBounds bounds scale translation) =
      some (order, tree.image fun bounds => transformBounds bounds scale translation) := by
  rw [moves.primitiveBounds, (transformBounds_respects positive translation).insert, inserted]
  rfl

theorem Moved.takeOrder (positive : 0 < scale) (moves : Moved scale translation scene moved)
    {bounds : Bounds K} {order : DrawOrder}
    (took : scene.takeOrder bounds = some (order, next)) :
    ∃ next', moved.takeOrder (transformBounds bounds scale translation) = some (order, next') ∧
      Moved scale translation next next' := by
  rw [Scene.takeOrder] at took
  cases open? : scene.layerStack.getLast? with
  | some last =>
      rw [open?] at took
      rcases Option.some.inj took with ⟨⟩
      refine ⟨moved, ?_, moves⟩
      rw [Scene.takeOrder, moves.layerStack, open?]
  | none =>
      rw [open?] at took
      rcases Option.bind_eq_some_iff.mp took with ⟨⟨order', tree⟩, inserted, same⟩
      rcases Option.some.inj same with ⟨⟩
      refine ⟨_, ?_, moves.reorder tree moves.layerStack⟩
      rw [Scene.takeOrder, moves.layerStack, open?]
      exact Option.bind_eq_some_iff.mpr ⟨_, moves.insert positive bounds inserted, rfl⟩

theorem Moved.replayOperation (positive : 0 < scale) (moves : Moved scale translation scene moved)
    {operation : PaintOperation K} (replays : scene.replayOperation operation = some next) :
    ∃ next', moved.replayOperation (operation.transformed scale translation) = some next' ∧
      Moved scale translation next next' := by
  cases operation with
  | primitive primitive =>
      have clipped : (clippedBounds (primitive.transformed scale translation)).isEmpty =
          (clippedBounds primitive).isEmpty := by
        rw [clippedBounds_transformed positive, transformBounds_isEmpty positive]
      cases empty : (clippedBounds primitive).isEmpty with
      | true =>
          rw [Scene.replayOperation, insertPrimitive_of_isEmpty empty] at replays
          rcases Option.some.inj replays with rfl
          exact ⟨moved, insertPrimitive_of_isEmpty (clipped.trans empty), moves⟩
      | false =>
          rw [Scene.replayOperation, insertPrimitive, if_neg (Bool.eq_false_iff.mp empty)] at replays
          rcases Option.bind_eq_some_iff.mp replays with ⟨⟨order, taken⟩, took, same⟩
          rcases Option.some.inj same with rfl
          rcases moves.takeOrder positive took with ⟨taken', took', moves'⟩
          refine ⟨_, insertPrimitive_of_takeOrder (clipped.trans empty) ?_,
            moves'.store order primitive⟩
          rwa [clippedBounds_transformed positive]
  | startLayer bounds =>
      rcases Option.bind_eq_some_iff.mp replays with ⟨⟨order, tree⟩, inserted, same⟩
      rcases Option.some.inj same with rfl
      have pushes : moved.pushLayer (transformBounds bounds scale translation) = _ :=
        Option.bind_eq_some_iff.mpr ⟨_, moves.insert positive bounds inserted, rfl⟩
      refine ⟨_, pushes, Moved.logOperation ?_ (.startLayer bounds)⟩
      exact moves.reorder tree (congrArg (· ++ [order]) moves.layerStack)
  | endLayer =>
      rcases Option.some.inj replays with rfl
      refine ⟨moved.popLayer, rfl, Moved.logOperation ?_ .endLayer⟩
      have popped := moves.reorder scene.primitiveBounds (congrArg List.dropLast moves.layerStack)
      rwa [← moves.primitiveBounds] at popped

theorem Moved.replay (positive : 0 < scale) (moves : Moved scale translation scene moved)
    {operations : List (PaintOperation K)}
    (replays : operations.foldlM Scene.replayOperation scene = some next) :
    ∃ next', moved.replayVectorTransform operations scale translation = some next' ∧
      Moved scale translation next next' := by
  rw [replayVectorTransform_eq]
  induction operations generalizing scene moved with
  | nil =>
      rcases Option.some.inj replays with rfl
      exact ⟨moved, rfl, moves⟩
  | cons operation operations ih =>
      rw [List.foldlM_cons] at replays
      rcases Option.bind_eq_some_iff.mp replays with ⟨middle, first, rest⟩
      rcases moves.replayOperation positive first with ⟨middle', first', moves'⟩
      rcases ih moves' rest with ⟨next', rest', moves''⟩
      refine ⟨next', ?_, moves''⟩
      rw [List.map_cons, List.foldlM_cons, first']
      exact rest'

end Moving

/-! ## Captured operations -/

/-- The closure of `clone_vector_paint`. -/
def cloneVectorOperation : PaintOperation K → Option (PaintOperation K)
  | .primitive (.surface _) | .primitive (.rasterTile _) => none
  | operation => some operation

/-- The outer `none` is a range outside the log. -/
def cloneVectorPaint (self : Scene K) (start stop : Nat) :
    Option (Option (List (PaintOperation K))) :=
  (slice self.paintOperations start stop).map (List.mapM cloneVectorOperation)

/-- An operation that can be captured. -/
def IsVector (operation : PaintOperation K) : Prop :=
  operation.kind? ≠ some .surface ∧ operation.kind? ≠ some .rasterTile

omit [Field K] [LinearOrder K] in
theorem cloneVectorOperation_of_isVector {operation : PaintOperation K}
    (isVector : IsVector operation) : cloneVectorOperation operation = some operation := by
  cases operation with
  | primitive primitive =>
      cases primitive with
      | surface surface => exact absurd rfl isVector.1
      | rasterTile tile => exact absurd rfl isVector.2
      | _ => rfl
  | startLayer bounds => rfl
  | endLayer => rfl

omit [Field K] [LinearOrder K] in
theorem cloneVectorPaint_of_isVector {scene : Scene K}
    (isVector : ∀ operation ∈ scene.paintOperations, IsVector operation) :
    scene.cloneVectorPaint 0 scene.len = some (some scene.paintOperations) := by
  have whole : slice scene.paintOperations 0 scene.len = some scene.paintOperations := by
    rw [slice, if_pos ⟨Nat.zero_le _, le_rfl⟩, List.drop_zero, Nat.sub_zero, len, List.take_length]
  rw [cloneVectorPaint, whole, Option.map_some, Option.some_inj]
  generalize scene.paintOperations = operations at isVector
  induction operations with
  | nil => rfl
  | cons operation operations ih =>
      have rest := ih fun later member => isVector later (List.mem_cons_of_mem _ member)
      rw [List.mapM_cons, cloneVectorOperation_of_isVector (isVector _ List.mem_cons_self), rest]
      rfl

/-- The log of a replay holds what was replayed. -/
theorem isVector_foldlM {scene next : Scene K} {operations : List (PaintOperation K)}
    (before : ∀ operation ∈ scene.paintOperations, IsVector operation)
    (isVector : ∀ operation ∈ operations, IsVector operation)
    (replays : operations.foldlM replayOperation scene = some next) :
    ∀ operation ∈ next.paintOperations, IsVector operation := by
  induction operations generalizing scene with
  | nil =>
      rcases Option.some.inj replays with rfl
      exact before
  | cons operation operations ih =>
      rw [List.foldlM_cons] at replays
      rcases Option.bind_eq_some_iff.mp replays with ⟨middle, first, rest⟩
      apply ih _ (fun later member => isVector later (List.mem_cons_of_mem _ member)) rest
      rcases replayOperation_logs first with rfl | ⟨logged, log, kind, _⟩
      · exact before
      · intro entry member
        rw [log] at member
        rcases List.mem_append.mp member with earlier | last
        · exact before entry earlier
        · rcases List.mem_singleton.mp last with rfl
          rw [IsVector, kind]
          exact isVector operation List.mem_cons_self

section Homomorphism

theorem transformed_transformed {scale scale' : K} (nonzero : scale ≠ 0) (nonzero' : scale' ≠ 0)
    (translation translation' : Point K) (operation : PaintOperation K) :
    (operation.transformed scale translation).transformed scale' translation' =
      operation.transformed (scale' * scale) (transformPoint translation scale' translation') := by
  cases operation with
  | primitive primitive =>
      exact congrArg PaintOperation.primitive
        (primitive.transformed_transformed nonzero nonzero' translation translation')
  | startLayer bounds =>
      exact congrArg PaintOperation.startLayer
        (Primitive.transformBounds_transformBounds bounds scale scale' translation translation')
  | endLayer => rfl

theorem transformed_kind? (operation : PaintOperation K) (scale : K) (translation : Point K) :
    (operation.transformed scale translation).kind? = operation.kind? := by
  cases operation with
  | primitive primitive => exact congrArg some (primitive.transformed_kind scale translation)
  | startLayer bounds => rfl
  | endLayer => rfl

variable [IsStrictOrderedRing K]

/-- The operations of a moved scene, moved again, build what the first operations build
under the composed transform. -/
theorem Moved.replay_again {scale scale' : K} (positive : 0 < scale) (positive' : 0 < scale')
    {translation translation' : Point K} {scene moved : Scene K}
    (moves : Moved scale translation scene moved) (logged : scene.Logged) :
    ∃ twice, empty.replayVectorTransform moved.paintOperations scale' translation' = some twice ∧
      Moved (scale' * scale) (transformPoint translation scale' translation') scene twice := by
  rcases (moved_empty (scale' * scale) (transformPoint translation scale' translation')).replay
      (mul_pos positive' positive) logged with
    ⟨twice, replays, moves'⟩
  refine ⟨twice, ?_, moves'⟩
  rw [replayVectorTransform_eq] at replays ⊢
  rw [← replays, moves.paintOperations, List.map_map]
  congr 2
  funext operation
  exact transformed_transformed positive.ne' positive'.ne' translation translation' operation

theorem replayVectorTransform_homomorphism (operations : List (PaintOperation K)) {scale : K}
    (positive : 0 < scale) (translation : Point K) :
    ∃ plain moved, operations.foldlM replayOperation empty = some plain ∧
      empty.replayVectorTransform operations scale translation = some moved ∧
      (∀ kind, moved.vector kind = (plain.vector kind).map (·.transformed scale translation)) ∧
      (∀ primitive : Primitive K,
        primitive.IsImage scale translation (primitive.transformed scale translation)) ∧
      ∀ {scale' : K} (translation' : Point K), 0 < scale' →
        (∀ operation ∈ operations, IsVector operation) →
        ∃ captured twice once, moved.cloneVectorPaint 0 moved.len = some (some captured) ∧
          empty.replayVectorTransform captured scale' translation' = some twice ∧
          empty.replayVectorTransform operations (scale' * scale)
            (transformPoint translation scale' translation') = some once ∧
          ∀ kind, twice.vector kind = once.vector kind := by
  rcases replay_isSome operations with ⟨plain, replays⟩
  rcases (moved_empty scale translation).replay positive replays with ⟨moved, replays', moves⟩
  refine ⟨plain, moved, replays, replays', moves.vector,
    Primitive.isImage_transformed positive.ne' translation, ?_⟩
  intro scale' translation' positive' isVector
  have plainVector := isVector_foldlM (fun _ none => absurd none List.not_mem_nil) isVector replays
  have movedVector : ∀ operation ∈ moved.paintOperations, IsVector operation := by
    intro operation member
    rw [moves.paintOperations] at member
    rcases List.mem_map.mp member with ⟨source, inPlain, rfl⟩
    rw [IsVector, transformed_kind?]
    exact plainVector source inPlain
  rcases moves.replay_again positive positive' (logged_empty.foldlM replays) with
    ⟨twice, again, moves'⟩
  rcases (moved_empty (scale' * scale) (transformPoint translation scale' translation')).replay
      (mul_pos positive' positive) replays with
    ⟨once, replays'', moves''⟩
  refine ⟨_, twice, once, cloneVectorPaint_of_isVector movedVector, again, replays'', ?_⟩
  intro kind
  rw [moves'.vector, moves''.vector]

end Homomorphism

/-- An underline in a layer, at twice its size. -/
theorem replayVectorTransform_homomorphism_doubled :
    ∃ plain moved : Scene ℚ,
      [.startLayer ⟨⟨0, 0⟩, ⟨20, 20⟩⟩,
        .primitive (.underline ⟨0, ⟨⟨0, 0⟩, ⟨4, 2⟩⟩, ⟨⟨⟨0, 0⟩, ⟨9, 9⟩⟩⟩, 1⟩),
        .endLayer].foldlM replayOperation empty = some plain ∧
      (∀ kind, moved.vector kind = (plain.vector kind).map (·.transformed 2 ⟨1, 1⟩)) := by
  rcases replayVectorTransform_homomorphism
      [.startLayer ⟨⟨0, 0⟩, ⟨20, 20⟩⟩,
        .primitive (.underline ⟨0, ⟨⟨0, 0⟩, ⟨4, 2⟩⟩, ⟨⟨⟨0, 0⟩, ⟨9, 9⟩⟩⟩, 1⟩),
        .endLayer] (two_pos : (0 : ℚ) < 2) ⟨1, 1⟩ with ⟨plain, moved, replays, _, vectors, _⟩
  exact ⟨plain, moved, replays, vectors⟩

end Scene

end Gpui
