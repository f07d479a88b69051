import Gpui.Scene.PaintedContent

/-!
# Painting into raster tiles

A tile that is missing from the cache is populated: its child is painted into a scene of its
own, under the bounds of the tile and a gutter around it, and the renderer turns that scene
into a texture.  Later frames compose the texture without painting the child.

The bounds of the capture are intersected with the content mask that is current when the tile
is populated, so the texture lacks what this mask hides.  The frame that populates a tile
composes it under the tile's own bounds, a later frame under the current mask.

Arithmetic is exact, and a texture shows at each point what its scene draws there.
-/

namespace Gpui

variable {K : Type} [Field K] [LinearOrder K]

namespace Bounds

omit [LinearOrder K] in
def dilate (self : Bounds K) (amount : K) : Bounds K where
  origin := ⟨self.origin.x - amount, self.origin.y - amount⟩
  size := ⟨self.size.width + (amount + amount), self.size.height + (amount + amount)⟩

end Bounds

/-! ## The window -/

structure RasterTileMiss where
  cacheId : UInt64
  key : UInt64
  revision : UInt64
deriving DecidableEq, Repr

structure RasterTileHit where
  cacheId : UInt64
  key : UInt64
  revision : UInt64
deriving DecidableEq, Repr

structure RasterTileUpdateTarget (K : Type) where
  key : UInt64
  revision : UInt64
  sourceBounds : Bounds K
deriving DecidableEq, Repr

/-- What the renderer is told to rasterize. -/
structure TileUpdate (K : Type) where
  cacheId : UInt64
  gutter : Int
  targets : List (RasterTileUpdateTarget K)
  scene : Scene K

/-- The window, as far as tiles are concerned, with the scene of the next frame. -/
structure TileWindow (K : Type) [Field K] [LinearOrder K] where
  scaleFactor : K
  scaleFactor_pos : 0 < scaleFactor
  viewportSize : Size K
  contentMaskStack : List (ContentMask K)
  scene : Scene K
  rasterTileUpdates : List (TileUpdate K)
  rasterTileUpdateBatches : List (TileUpdate K)

namespace TileWindow

def contentMask (self : TileWindow K) : ContentMask K :=
  self.contentMaskStack.getLast?.getD ⟨⟨⟨0, 0⟩, self.viewportSize⟩⟩

def insertPrimitive (self : TileWindow K) (primitive : Primitive K) : Option (TileWindow K) :=
  (self.scene.insertPrimitive primitive).map fun scene => { self with scene }

/-- Paint a child into a scene of its own. -/
def captureScene (self : TileWindow K) (captureBounds : Bounds K) (child : PaintedContent K) :
    Option (Scene K) :=
  let contentMask := (⟨captureBounds⟩ : ContentMask K).intersect self.contentMask
  (child.paint self.scaleFactor contentMask Scene.empty).map Scene.finish

/-- The window where all of some bounds is visible, and nothing else. -/
def showing (self : TileWindow K) (bounds : Bounds K) : TileWindow K :=
  { self with contentMaskStack := [⟨bounds⟩] }

end TileWindow

/-! ## The elements -/

namespace CachedRasterTile

/-- The primitive that a hit composes. -/
def tile (hit : RasterTileHit) (bounds : Bounds K) (window : TileWindow K) : RasterTile K where
  order := 0
  bounds := bounds.scale window.scaleFactor
  contentMask := window.contentMask.scale window.scaleFactor
  cacheId := hit.cacheId
  key := hit.key
  revision := hit.revision

def paint (hit : RasterTileHit) (bounds : Bounds K) (window : TileWindow K) :
    Option (TileWindow K) :=
  window.insertPrimitive (.rasterTile (tile hit bounds window))

end CachedRasterTile

/-- A tile to populate: what of the child it holds, and where it is composed. -/
structure TileCapture (K : Type) where
  miss : RasterTileMiss
  sourceBounds : Bounds K
  compositionBounds : Bounds K
deriving DecidableEq, Repr

namespace TileCapture

def target (self : TileCapture K) (scaleFactor : K) : RasterTileUpdateTarget K where
  key := self.miss.key
  revision := self.miss.revision
  sourceBounds := self.sourceBounds.scale scaleFactor

/-- The primitive that composes the tile in the frame that populates it. -/
def composed (self : TileCapture K) (cacheId : UInt64) (scaleFactor : K) : RasterTile K where
  order := 0
  bounds := self.compositionBounds.scale scaleFactor
  contentMask := ⟨self.compositionBounds.scale scaleFactor⟩
  cacheId := cacheId
  key := self.miss.key
  revision := self.miss.revision

def hit (self : TileCapture K) : RasterTileHit where
  cacheId := self.miss.cacheId
  key := self.miss.key
  revision := self.miss.revision

end TileCapture

/-- What `RasterizeTile` and `RasterizeTiles` have in common: a child, and the tiles that it
is captured into. -/
structure TilePopulation (K : Type) where
  child : PaintedContent K
  gutter : Int
  compose : Bool
  first : TileCapture K
  rest : List (TileCapture K)
deriving DecidableEq, Repr

namespace TilePopulation

def captures (self : TilePopulation K) : List (TileCapture K) :=
  self.first :: self.rest

def captureBounds (self : TilePopulation K) (scaleFactor : K) : Bounds K :=
  (self.rest.foldl (fun left capture => left.union capture.sourceBounds)
    self.first.sourceBounds).dilate (self.gutter / scaleFactor)

/-- The scene that the tiles are made from. -/
def capture (self : TilePopulation K) (window : TileWindow K) : Option (Scene K) :=
  window.captureScene (self.captureBounds window.scaleFactor) self.child

def update (self : TilePopulation K) (window : TileWindow K) (scene : Scene K) :
    TileUpdate K where
  cacheId := self.first.miss.cacheId
  gutter := self.gutter
  targets := self.captures.map fun capture => capture.target window.scaleFactor
  scene := scene

/-- The composition at the end of `paint`. -/
def composeTiles (self : TilePopulation K) (window : TileWindow K) : Option (TileWindow K) :=
  if self.compose then
    self.captures.foldlM (fun window capture =>
      window.insertPrimitive
        (.rasterTile (capture.composed self.first.miss.cacheId window.scaleFactor))) window
  else some window

end TilePopulation

structure RasterizeTile (K : Type) where
  miss : RasterTileMiss
  gutter : Int
  child : PaintedContent K
  compose : Bool
deriving DecidableEq, Repr

namespace RasterizeTile

def population (self : RasterizeTile K) (bounds : Bounds K) : TilePopulation K where
  child := self.child
  gutter := self.gutter
  compose := self.compose
  first := ⟨self.miss, bounds, bounds⟩
  rest := []

def paint (self : RasterizeTile K) (bounds : Bounds K) (window : TileWindow K) :
    Option (TileWindow K) := do
  let tileScene ← (self.population bounds).capture window
  let update := (self.population bounds).update window tileScene
  (self.population bounds).composeTiles
    { window with rasterTileUpdates := window.rasterTileUpdates ++ [update] }

end RasterizeTile

structure RasterizeTiles (K : Type) where
  captures : List (TileCapture K)
  gutter : Int
  child : PaintedContent K
  compose : Bool
deriving DecidableEq, Repr

namespace RasterizeTiles

def population (self : RasterizeTiles K) : Option (TilePopulation K) :=
  match self.captures with
  | [] => none
  | first :: rest =>
      some {
        child := self.child
        gutter := self.gutter
        compose := self.compose
        first
        rest }

def paint (self : RasterizeTiles K) (window : TileWindow K) : Option (TileWindow K) :=
  match self.population with
  | none => some window
  | some population => do
      let tileScene ← population.capture window
      let update := population.update window tileScene
      population.composeTiles
        { window with rasterTileUpdateBatches := window.rasterTileUpdateBatches ++ [update] }

end RasterizeTiles

/-! ## What painting leaves to the renderer -/

/-! ## What a tile shows -/

/-- A primitive as it looks from an origin, its order and its mask left out. -/
def Primitive.relativeTo (origin : Point K) (primitive : Primitive K) : Primitive K :=
  ((primitive.transformed 1 ⟨-origin.x, -origin.y⟩).withOrder 0 0).withContentMask
    ⟨⟨⟨0, 0⟩, ⟨0, 0⟩⟩⟩

/-- What a finished scene draws at a point, one over the other. -/
def Scene.drawnAt (self : Scene K) (origin point : Point K) : List (Primitive K) :=
  ((self.batches.flatMap PrimitiveBatch.primitives).filter fun primitive =>
    (Scene.clippedBounds primitive).Contains point).map (Primitive.relativeTo origin)

namespace RasterTile

def Reaches (self : RasterTile K) (point : Point K) : Prop :=
  self.bounds.Contains point ∧ self.contentMask.bounds.Contains point

instance (self : RasterTile K) (point : Point K) : Decidable (self.Reaches point) :=
  inferInstanceAs (Decidable (_ ∧ _))

/-- What composing a tile draws at a point, where the texture is made from a scene. -/
def shows (self : RasterTile K) (scene : Scene K) (sourceBounds : Bounds K) (point : Point K) :
    List (Primitive K) :=
  if self.Reaches point then
    scene.drawnAt sourceBounds.origin
      ((point.sub self.bounds.origin).add sourceBounds.origin)
  else []

end RasterTile

namespace TileCapture

def moved (translation : Point K) (self : TileCapture K) : TileCapture K :=
  { self with
    sourceBounds := transformBounds self.sourceBounds 1 translation
    compositionBounds := transformBounds self.compositionBounds 1 translation }

end TileCapture

namespace TilePopulation

/-- The same content and tiles at another place. -/
def moved (self : TilePopulation K) (scaleFactor : K) (translation : Point K) :
    TilePopulation K :=
  { self with
    child := self.child.transformed scaleFactor 1 translation
    first := self.first.moved translation
    rest := self.rest.map (TileCapture.moved translation) }

/-- The frame that populates tiles does so for every later frame. -/
structure ShowsFresh (population : TilePopulation K) (window : TileWindow K) : Prop where
  /-- A hit shows what populating the tile at its place, with all of the captured bounds
  visible, would show under the same mask. -/
  hit : ∀ capture ∈ population.captures, ∀ (later : TileWindow K) (bounds : Bounds K),
    later.scaleFactor = window.scaleFactor → bounds.size = capture.sourceBounds.size →
      let fresh := population.moved window.scaleFactor
        (bounds.origin.sub capture.sourceBounds.origin)
      let tile := CachedRasterTile.tile capture.hit bounds later
      ∀ point,
        (population.capture window).map (fun scene =>
            tile.shows scene (capture.sourceBounds.scale window.scaleFactor) point) =
          (fresh.capture (later.showing (fresh.captureBounds window.scaleFactor))).map
            fun scene => tile.shows scene (bounds.scale window.scaleFactor) point
  /-- The captured scene does not depend on the mask. -/
  scene : population.capture window =
    population.capture (window.showing (population.captureBounds window.scaleFactor))
  /-- The tile is composed where a hit would compose it. -/
  mask : population.compose = true → ∀ capture ∈ population.captures, ∀ point,
    (capture.composed population.first.miss.cacheId window.scaleFactor).Reaches point ↔
      (CachedRasterTile.tile capture.hit capture.compositionBounds window).Reaches point

end TilePopulation

/-! ## Moved tiles -/

section Moving

variable [IsStrictOrderedRing K]

theorem Bounds.contains_transformBounds (bounds : Bounds K) (translation point : Point K) :
    (transformBounds bounds 1 translation).Contains (transformPoint point 1 translation) ↔
      bounds.Contains point := by
  rw [Bounds.Contains, transformBounds_bottomRight]
  simp only [transformBounds, transformPoint, mul_one, add_le_add_iff_right,
    add_lt_add_iff_right]
  rfl

omit [IsStrictOrderedRing K] in
theorem Primitive.relativeTo_transformed (primitive : Primitive K)
    (origin translation : Point K) :
    (primitive.transformed 1 translation).relativeTo (transformPoint origin 1 translation) =
      primitive.relativeTo origin := by
  have back : transformPoint translation 1 ⟨-(origin.x * 1 + translation.x),
      -(origin.y * 1 + translation.y)⟩ = (⟨-origin.x, -origin.y⟩ : Point K) := by
    simp only [transformPoint, Point.mk.injEq]
    constructor
    · ring
    · ring
  rw [relativeTo, relativeTo, transformed_transformed _ one_ne_zero one_ne_zero, mul_one]
  simp only [transformPoint] at back ⊢
  rw [back]

/-- A moved scene draws the same at moved points. -/
theorem Scene.Moved.drawnAt {translation : Point K} {scene moved : Scene K}
    (moves : Scene.Moved 1 translation scene moved) (origin point : Point K) :
    moved.finish.drawnAt (transformPoint origin 1 translation)
        (transformPoint point 1 translation) =
      scene.finish.drawnAt origin point := by
  have drawn : moved.finish.batches.flatMap PrimitiveBatch.primitives =
      (scene.finish.batches.flatMap PrimitiveBatch.primitives).map fun primitive =>
        primitive.transformed 1 translation := by
    rw [moves.batches, List.flatMap_map, List.map_flatMap]
    rfl
  rw [Scene.drawnAt, Scene.drawnAt, drawn, List.filter_map, List.map_map]
  congr 1
  · funext primitive
    exact primitive.relativeTo_transformed origin translation
  · congr 1
    funext primitive
    simp only [Function.comp_apply, clippedBounds_transformed one_pos,
      Bounds.contains_transformBounds]

namespace TilePopulation

variable {population : TilePopulation K} {window : TileWindow K}

omit [LinearOrder K] [IsStrictOrderedRing K] in
theorem dilate_transformBounds (bounds : Bounds K) (translation : Point K) (amount : K) :
    (transformBounds bounds 1 translation).dilate amount =
      transformBounds (bounds.dilate amount) 1 translation := by
  simp only [Bounds.dilate, transformBounds, transformPoint, Bounds.mk.injEq, Point.mk.injEq,
    Size.mk.injEq]
  constructor
  · constructor
    · ring
    · ring
  · constructor
    · ring
    · ring

theorem captureBounds_moved (population : TilePopulation K) (scaleFactor : K)
    (translation : Point K) :
    (population.moved scaleFactor translation).captureBounds scaleFactor =
      transformBounds (population.captureBounds scaleFactor) 1 translation := by
  have unions (left : Bounds K) (rest : List (TileCapture K)) :
      (rest.map (TileCapture.moved translation)).foldl
          (fun left capture => left.union capture.sourceBounds)
          (transformBounds left 1 translation) =
        transformBounds (rest.foldl (fun left capture => left.union capture.sourceBounds) left)
          1 translation := by
    induction rest generalizing left with
    | nil => rfl
    | cons capture rest ih =>
        rw [List.map_cons, List.foldl_cons, List.foldl_cons, ← ih]
        congr 1
        exact (transformBounds_respects one_pos translation).union left capture.sourceBounds
  rw [captureBounds, captureBounds, ← dilate_transformBounds]
  exact congrArg (Bounds.dilate · _) (unions _ _)

omit [IsStrictOrderedRing K] in
theorem capture_showing (population : TilePopulation K) (window : TileWindow K) :
    population.capture (window.showing (population.captureBounds window.scaleFactor)) =
      (population.child.paint window.scaleFactor
        ⟨population.captureBounds window.scaleFactor⟩ Scene.empty).map Scene.finish := by
  rw [capture, TileWindow.captureScene]
  congr 2
  exact congrArg ContentMask.mk (Bounds.intersect_self _)

/-- Where the captured scene does not depend on the mask, a hit shows all of the tile. -/
theorem hit_of_scene
    (scene : population.capture window =
      population.capture (window.showing (population.captureBounds window.scaleFactor)))
    {capture : TileCapture K} {later : TileWindow K} {bounds : Bounds K}
    (sameScale : later.scaleFactor = window.scaleFactor) (point : Point K) :
    let fresh := population.moved window.scaleFactor
      (bounds.origin.sub capture.sourceBounds.origin)
    let tile := CachedRasterTile.tile capture.hit bounds later
    (population.capture window).map (fun scene =>
        tile.shows scene (capture.sourceBounds.scale window.scaleFactor) point) =
      (fresh.capture (later.showing (fresh.captureBounds window.scaleFactor))).map
        fun scene => tile.shows scene (bounds.scale window.scaleFactor) point := by
  intro fresh tile
  let translation := bounds.origin.sub capture.sourceBounds.origin
  rcases population.child.exists_paint window.scaleFactor
    ⟨population.captureBounds window.scaleFactor⟩ with ⟨whole, paints⟩
  rcases population.child.paint_transformed window.scaleFactor one_pos translation _ paints with
    ⟨moved, paintsMoved, moves⟩
  have captured : population.capture window = some whole.finish := by
    rw [scene, capture_showing, paints]
    rfl
  have freshly : fresh.capture (later.showing (fresh.captureBounds window.scaleFactor)) =
      some moved.finish := by
    rw [← sameScale, capture_showing, sameScale, captureBounds_moved]
    exact congrArg (Option.map Scene.finish) paintsMoved
  rw [captured, freshly, Option.map_some, Option.map_some]
  apply congrArg some
  rw [RasterTile.shows, RasterTile.shows]
  by_cases reaches : tile.Reaches point
  · rw [if_pos reaches, if_pos reaches]
    have tileBounds : tile.bounds = bounds.scale window.scaleFactor := by
      rw [← sameScale]
      rfl
    rw [tileBounds, ← moves.drawnAt]
    congr 1
    · apply Point.eq_of_coordinates
      · simp only [transformPoint, Bounds.scale, Point.scale, translation, Point.sub]
        ring
      · simp only [transformPoint, Bounds.scale, Point.scale, translation, Point.sub]
        ring
    · apply Point.eq_of_coordinates
      · simp only [transformPoint, Bounds.scale, Point.scale, translation, Point.sub, Point.add]
        ring
      · simp only [transformPoint, Bounds.scale, Point.scale, translation, Point.sub, Point.add]
        ring
  · rw [if_neg reaches, if_neg reaches]

/-! ## When the mask matters -/

/-- The frame sees all that is captured. -/
def SeesCapture (population : TilePopulation K) (window : TileWindow K) : Prop :=
  (population.captureBounds window.scaleFactor).isEmpty = true ∨
    window.contentMask.bounds.Covers (population.captureBounds window.scaleFactor)

/-- The frame sees all that it composes. -/
def SeesComposition (population : TilePopulation K) (window : TileWindow K) : Prop :=
  population.compose = true → ∀ capture ∈ population.captures,
    capture.compositionBounds.isEmpty = true ∨
      window.contentMask.bounds.Covers capture.compositionBounds

theorem scene_of_seesCapture (sees : population.SeesCapture window) :
    population.capture window =
      population.capture (window.showing (population.captureBounds window.scaleFactor)) := by
  rw [capture_showing, capture, TileWindow.captureScene]
  rcases sees with nothing | covers
  · have hidden : ((⟨population.captureBounds window.scaleFactor⟩ : ContentMask K).intersect
        window.contentMask).bounds.isEmpty = true := by
      rw [ContentMask.intersect, Bounds.intersect_comm]
      exact Bounds.isEmpty_intersect_right nothing
    have paint (contentMask : ContentMask K) (hides : contentMask.bounds.isEmpty = true) :
        population.child.paint window.scaleFactor contentMask Scene.empty = some Scene.empty :=
      population.child.paint_of_isEmpty window.scaleFactor_pos contentMask hides Scene.empty
    exact congrArg (Option.map Scene.finish) ((paint _ hidden).trans (paint _ nothing).symm)
  · have same : (⟨population.captureBounds window.scaleFactor⟩ : ContentMask K).intersect
        window.contentMask = ⟨population.captureBounds window.scaleFactor⟩ :=
      congrArg ContentMask.mk ((Bounds.intersect_eq_left_iff _ _).mpr covers)
    rw [same]

theorem mask_of_seesComposition (sees : population.SeesComposition window)
    (composes : population.compose = true) {capture : TileCapture K}
    (member : capture ∈ population.captures) (point : Point K) :
    (capture.composed population.first.miss.cacheId window.scaleFactor).Reaches point ↔
      (CachedRasterTile.tile capture.hit capture.compositionBounds window).Reaches point := by
  constructor
  · rintro ⟨inside, -⟩
    constructor
    · exact inside
    · rcases sees composes capture member with nothing | covers
      · have something := inside.isEmpty_eq_false
        rw [TileCapture.composed, Bounds.isEmpty_scale _ window.scaleFactor_pos] at something
        exact absurd nothing (Bool.eq_false_iff.mp something)
      · exact ((Bounds.covers_scale _ _ window.scaleFactor_pos).mpr covers).contains inside
  · rintro ⟨inside, -⟩
    exact ⟨inside, inside⟩

/-- A child that paints a single quad. -/
def quadOver (bounds : Bounds K) : PaintedContent K :=
  .primitive (.quad ⟨0, bounds, ⟨bounds⟩, ⟨0, 0, 0, 0⟩, ⟨0, 0, 0, 0⟩, .unit⟩) .nothing

omit [IsStrictOrderedRing K] in
/-- A quad is painted with the mask it is painted under. -/
theorem paint_quadOver (scaleFactor : K) (bounds : Bounds K) (contentMask : ContentMask K) :
    ∃ scene, (quadOver bounds).paint scaleFactor contentMask Scene.empty = some scene ∧
      ∀ primitive, primitive ∈ scene.vector .quad ↔
        (bounds.intersect (contentMask.scale scaleFactor).bounds).isEmpty = false ∧
          primitive = .quad ⟨1, bounds, contentMask.scale scaleFactor, ⟨0, 0, 0, 0⟩,
            ⟨0, 0, 0, 0⟩, .unit⟩ := by
  let quad : Primitive K := .quad ⟨0, bounds, contentMask.scale scaleFactor, ⟨0, 0, 0, 0⟩,
    ⟨0, 0, 0, 0⟩, .unit⟩
  cases clipped : (bounds.intersect (contentMask.scale scaleFactor).bounds).isEmpty with
  | true =>
      have hidden : (Scene.clippedBounds quad).isEmpty = true := clipped
      apply Exists.intro Scene.empty
      constructor
      · exact congrArg (Option.bind · some) (Scene.insertPrimitive_of_isEmpty hidden)
      · intro primitive
        constructor
        · intro member
          cases member
        · rintro ⟨kept, -⟩
          cases kept
  | false =>
      have kept : (Scene.clippedBounds quad).isEmpty = false := clipped
      rcases Scene.insertPrimitive_empty kept with ⟨scene, inserts, vector⟩
      apply Exists.intro scene
      constructor
      · exact congrArg (Option.bind · some) inserts
      · intro primitive
        have isQuad : scene.vector .quad = [quad.withOrder 1 0] := (vector .quad).trans (if_pos rfl)
        rw [isQuad, List.mem_singleton]
        exact (and_iff_right rfl).symm

/-- A quad over all that is captured shows whether the mask cuts it. -/
theorem seesCapture_of_scene
    (scene : ∀ child, ({ population with child } : TilePopulation K).capture window =
      ({ population with child } : TilePopulation K).capture
        (window.showing (population.captureBounds window.scaleFactor))) :
    population.SeesCapture window := by
  let bounds := (population.captureBounds window.scaleFactor).scale window.scaleFactor
  cases something : (population.captureBounds window.scaleFactor).isEmpty with
  | true => exact .inl something
  | false =>
      right
      rcases paint_quadOver window.scaleFactor bounds
        ((⟨population.captureBounds window.scaleFactor⟩ : ContentMask K).intersect
          window.contentMask) with ⟨captured, paints, members⟩
      rcases paint_quadOver window.scaleFactor bounds
        ⟨population.captureBounds window.scaleFactor⟩ with ⟨whole, paintsWhole, membersWhole⟩
      have same : captured.finish = whole.finish := by
        have scenes := (scene (quadOver bounds)).trans
          (capture_showing { population with child := quadOver bounds } window)
        have left : ({ population with child := quadOver bounds } : TilePopulation K).capture
            window = some captured.finish := congrArg (Option.map Scene.finish) paints
        have right : ((quadOver bounds).paint window.scaleFactor
            ⟨population.captureBounds window.scaleFactor⟩ Scene.empty).map Scene.finish =
              some whole.finish := congrArg (Option.map Scene.finish) paintsWhole
        exact Option.some.inj (left.symm.trans (scenes.trans right))
      have visible : (bounds.intersect bounds).isEmpty = false := by
        rw [Bounds.intersect_self, Bounds.isEmpty_scale _ window.scaleFactor_pos]
        exact something
      have member := (membersWhole _).mpr ⟨visible, rfl⟩
      rw [← Scene.finish_mem_vector, ← same, Scene.finish_mem_vector, members] at member
      have masks : (population.captureBounds window.scaleFactor).scale window.scaleFactor =
          ((population.captureBounds window.scaleFactor).intersect
            window.contentMask.bounds).scale window.scaleFactor :=
        congrArg (fun primitive => primitive.contentMask.bounds) member.2
      rw [← Bounds.intersect_scale _ _ window.scaleFactor_pos] at masks
      rw [← Bounds.covers_scale _ _ window.scaleFactor_pos]
      exact (Bounds.intersect_eq_left_iff _ _).mp masks.symm

theorem seesComposition_of_mask
    (mask : population.compose = true → ∀ capture ∈ population.captures, ∀ point,
      (capture.composed population.first.miss.cacheId window.scaleFactor).Reaches point ↔
        (CachedRasterTile.tile capture.hit capture.compositionBounds window).Reaches point) :
    population.SeesComposition window := by
  intro composes capture member
  cases something : capture.compositionBounds.isEmpty with
  | true => exact .inl rfl
  | false =>
      right
      rw [← Bounds.covers_scale _ _ window.scaleFactor_pos]
      apply Bounds.covers_of_contains ((Bounds.isEmpty_scale _ window.scaleFactor_pos).trans
        something)
      intro point inside
      exact ((mask composes capture member point).mp ⟨inside, inside⟩).2

/-- Populating tiles does for every later frame, whatever the child paints, if and only if the
populating frame sees all of the bounds it captures and of the bounds it composes. -/
theorem showsFresh_iff (population : TilePopulation K) (window : TileWindow K) :
    (∀ child, ShowsFresh { population with child } window) ↔
      population.SeesCapture window ∧ population.SeesComposition window := by
  constructor
  · intro fresh
    constructor
    · exact seesCapture_of_scene fun child => (fresh child).scene
    · exact seesComposition_of_mask (fresh population.child).mask
  · rintro ⟨seesCapture, seesComposition⟩ child
    have sees : SeesCapture { population with child } window := seesCapture
    have scene := scene_of_seesCapture sees
    constructor
    · intro capture _ later bounds sameScale _
      exact hit_of_scene scene sameScale
    · exact scene
    · intro composes capture member
      exact mask_of_seesComposition seesComposition composes member

end TilePopulation

end Moving

namespace TilePopulation

/-- A tile with its gutter inside the window. -/
theorem showsFresh_iff_inside :
    ShowsFresh ⟨quadOver ⟨⟨12, 12⟩, ⟨30, 30⟩⟩, 1, true,
        ⟨⟨1, 2, 3⟩, ⟨⟨10, 10⟩, ⟨20, 20⟩⟩, ⟨⟨10, 10⟩, ⟨20, 20⟩⟩⟩, []⟩
      ⟨(2 : ℚ), two_pos, ⟨100, 100⟩, [], Scene.empty, [], []⟩ := by
  apply (showsFresh_iff
    ⟨.nothing, 1, true, ⟨⟨1, 2, 3⟩, ⟨⟨10, 10⟩, ⟨20, 20⟩⟩, ⟨⟨10, 10⟩, ⟨20, 20⟩⟩⟩, []⟩
    ⟨(2 : ℚ), two_pos, ⟨100, 100⟩, [], Scene.empty, [], []⟩).mpr
  constructor
  · right
    decide +kernel
  · intro _ capture member
    right
    cases List.mem_singleton.mp member
    decide +kernel

/-- A tile that is populated while its right half is masked lacks this half when all of it is
visible. -/
theorem not_showsFresh :
    ¬ ∀ (population : TilePopulation ℚ) (window : TileWindow ℚ),
      population.ShowsFresh window := by
  intro fresh
  let bounds : Bounds ℚ := ⟨⟨10, 10⟩, ⟨20, 20⟩⟩
  let tile : RasterizeTile ℚ := ⟨⟨1, 2, 3⟩, 1, quadOver bounds, true⟩
  let window : TileWindow ℚ :=
    ⟨1, one_pos, ⟨100, 100⟩, [⟨⟨⟨0, 0⟩, ⟨20, 100⟩⟩⟩], Scene.empty, [], []⟩
  let later : TileWindow ℚ := ⟨1, one_pos, ⟨100, 100⟩, [], Scene.empty, [], []⟩
  have hit := (fresh (tile.population bounds) window).hit _ List.mem_cons_self later bounds rfl
    rfl ⟨25, 15⟩
  revert hit
  decide +kernel

end TilePopulation

end Gpui
