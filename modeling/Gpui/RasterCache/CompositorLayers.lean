import Gpui.Geometry
import Gpui.Library.PartialMap
import Gpui.Library.Transition

/-!
# Layers of the raster compositors

A surface is captured with some transform and drawn into a layer of its own, which is then
moved and scaled as its handle says, until it is captured again.  Drawing a frame replaces
what was captured, draws the surface if its layer has a drawable, and places the layer if it
would cover the clip.  A layer that is captured again but not drawn, or drawn but not placed,
shows its points in the wrong places.

Numbers are exact.  A snapshot of a handle is one of the transforms it was given; revisions
do not wrap.
-/

namespace Gpui

open Library

variable {K : Type} [Field K] [LinearOrder K]

/-- A transform that `RasterCompositorTransform::new` returns. -/
structure CompositorTransform (K : Type) [Field K] [LinearOrder K] where
  scale : K
  translation : Point K
  positive : 0 < scale
deriving DecidableEq

/-- What `synchronize_raster_compositors` reads of a `RasterCompositorSurface`. -/
structure CompositorSurface (K : Type) [Field K] [LinearOrder K] where
  /-- `handle.id()`. -/
  id : UInt64
  capturedTransform : CompositorTransform K
  clipBounds : Bounds K
  rasterBounds : Bounds K

structure AppliedRasterCompositorTransform (K : Type) where
  revision : Nat
  position : Point K
  ratio : K

structure RasterCompositorLayer (K : Type) [Field K] [LinearOrder K] where
  capturedTransform : CompositorTransform K
  clipBounds : Bounds K
  rasterBounds : Bounds K
  lastApplied : Option (AppliedRasterCompositorTransform K)
  /-- The contents scale that the container and the layer are configured with. -/
  contentsScale : K
  /-- `position` of the layer. -/
  position : Point K
  /-- The scale of `affineTransform` of the layer. -/
  ratio : K
  /-- The transform and the bounds that what it shows was captured with, which no code
  reads. -/
  content : Option (CompositorTransform K × Bounds K)

structure RasterCompositors (K : Type) [Field K] [LinearOrder K] where
  /-- The revision and the transform that a snapshot of a handle returns. -/
  handles : UInt64 → Nat × CompositorTransform K
  /-- The transforms that a handle has been given, which no code reads. -/
  published : UInt64 → List (CompositorTransform K)
  /-- `raster_compositor_layers`. -/
  layers : PartialMap UInt64 fun _ => RasterCompositorLayer K

inductive CompositorEvent (K : Type) [Field K] [LinearOrder K] where
  /-- `RasterCompositorTransformHandle::update`. -/
  | update (id : UInt64) (transform : CompositorTransform K)
  | updateTransforms (contentsScale : K)
  | latch (id : UInt64) (contentsScale : K)
  /-- The surfaces of the scene, and whether they are drawn. -/
  | draw (surfaces : List (CompositorSurface K × Bool)) (contentsScale : K)

/-- Where the transform puts a point of the canvas. -/
def CompositorTransform.apply (self : CompositorTransform K) (p : Point K) : Point K :=
  ⟨self.scale * p.x + self.translation.x, self.scale * p.y + self.translation.y⟩

namespace RasterCompositorLayer

/-! ## Placing a layer -/

/-- `ratio` in `apply_raster_compositor_transform`. -/
def ratioFor (captured current : CompositorTransform K) : K :=
  current.scale / captured.scale

/-- `position` in `apply_raster_compositor_transform`. -/
def positionFor (captured : CompositorTransform K) (raster clip : Bounds K) (contentsScale : K)
    (current : CompositorTransform K) : Point K where
  x := ratioFor captured current *
      (raster.origin.x / contentsScale - captured.translation.x) +
    current.translation.x - clip.origin.x / contentsScale
  y := ratioFor captured current *
      (raster.origin.y / contentsScale - captured.translation.y) +
    current.translation.y - clip.origin.y / contentsScale

/-- `raster_compositor_surface_covers_clip`. -/
def surfaceCoversClip (position : Point K) (ratio : K) (rasterSize clipSize : Size K) : Bool :=
  let epsilon : K := 1 / 100
  if ratio ≤ 0 then false
  else
    position.x ≤ epsilon && position.y ≤ epsilon &&
      clipSize.width ≤ position.x + rasterSize.width * ratio + epsilon &&
      clipSize.height ≤ position.y + rasterSize.height * ratio + epsilon

/-- The layer would cover the clip when it was placed for the transform. -/
def covers (self : RasterCompositorLayer K) (contentsScale : K)
    (current : CompositorTransform K) : Bool :=
  let size (bounds : Bounds K) : Size K :=
    ⟨bounds.size.width / contentsScale, bounds.size.height / contentsScale⟩
  surfaceCoversClip
    (positionFor self.capturedTransform self.rasterBounds self.clipBounds contentsScale current)
    (ratioFor self.capturedTransform current) (size self.rasterBounds) (size self.clipBounds)

/-- `apply_raster_compositor_transform`, with a snapshot of the handle. -/
def apply (self : RasterCompositorLayer K) (contentsScale : K)
    (snapshot : Nat × CompositorTransform K) : RasterCompositorLayer K :=
  let (revision, current) := snapshot
  if self.lastApplied.any fun applied => applied.revision = revision then self
  else if self.covers contentsScale current then
    let position :=
      positionFor self.capturedTransform self.rasterBounds self.clipBounds contentsScale current
    let ratio := ratioFor self.capturedTransform current
    { self with position, ratio, lastApplied := some { revision, position, ratio } }
  else self

/-- `new_raster_compositor_layer`. -/
def new (surface : CompositorSurface K) (contentsScale : K) : RasterCompositorLayer K where
  capturedTransform := surface.capturedTransform
  clipBounds := surface.clipBounds
  rasterBounds := surface.rasterBounds
  lastApplied := none
  contentsScale
  position := ⟨0, 0⟩
  ratio := 1
  content := none

/-- The surface is captured in the layer, and drawn if there is a drawable. -/
def synchronize (self : RasterCompositorLayer K) (surface : CompositorSurface K)
    (drawn : Bool) (contentsScale : K) : RasterCompositorLayer K where
  capturedTransform := surface.capturedTransform
  clipBounds := surface.clipBounds
  rasterBounds := surface.rasterBounds
  lastApplied :=
    if self.capturedTransform ≠ surface.capturedTransform ∨
        self.clipBounds ≠ surface.clipBounds ∨ self.rasterBounds ≠ surface.rasterBounds then none
    else self.lastApplied
  contentsScale
  position := self.position
  ratio := self.ratio
  content :=
    if drawn then some (surface.capturedTransform, surface.rasterBounds) else self.content

/-- Where the layer shows a point of the canvas that was captured so: the container is at the
clip, and the layer in it shows the bounds. -/
def shown (self : RasterCompositorLayer K) (captured : CompositorTransform K) (raster : Bounds K)
    (p : Point K) : Point K where
  x := self.clipBounds.origin.x / self.contentsScale + self.position.x +
    self.ratio * ((captured.apply p).x - raster.origin.x / self.contentsScale)
  y := self.clipBounds.origin.y / self.contentsScale + self.position.y +
    self.ratio * ((captured.apply p).y - raster.origin.y / self.contentsScale)

end RasterCompositorLayer

namespace RasterCompositors

/-! ## Drawing and updating -/

def new (transforms : UInt64 → CompositorTransform K) : RasterCompositors K where
  handles id := (0, transforms id)
  published id := [transforms id]
  layers := .empty

/-- `update_raster_compositor_transforms`. -/
def updateRasterCompositorTransforms (self : RasterCompositors K) (contentsScale : K) :
    RasterCompositors K :=
  { self with
    layers := fun id => (self.layers id).map fun layer =>
      layer.apply (max contentsScale 1) (self.handles id) }

/-- The surfaces, one after the other. -/
def synchronizeSurfaces (contentsScale : K) (surfaces : List (CompositorSurface K × Bool))
    (layers : PartialMap UInt64 fun _ => RasterCompositorLayer K) :
    PartialMap UInt64 fun _ => RasterCompositorLayer K :=
  surfaces.foldl (fun layers entry =>
    let layer := (layers entry.1.id).getD (.new entry.1 (max contentsScale 1))
    layers.insert entry.1.id (layer.synchronize entry.1 entry.2 (max contentsScale 1))) layers

/-- The layers whose surfaces are in the scene are kept. -/
def retained (self : RasterCompositors K) (surfaces : List (CompositorSurface K × Bool)) :
    PartialMap UInt64 fun _ => RasterCompositorLayer K :=
  fun id => if id ∈ surfaces.map (fun entry => entry.1.id) then self.layers id else none

/-- `synchronize_raster_compositors`, but for placing the layers. -/
def synchronized (self : RasterCompositors K)
    (surfaces : List (CompositorSurface K × Bool)) (contentsScale : K) :
    RasterCompositors K :=
  { self with layers := synchronizeSurfaces contentsScale surfaces (self.retained surfaces) }

def step (self : RasterCompositors K) : CompositorEvent K → Option (RasterCompositors K)
  | .update id transform =>
      if (self.handles id).2 = transform then some self
      else
        some { self with
          handles := Function.update self.handles id ((self.handles id).1 + 1, transform)
          published := Function.update self.published id (transform :: self.published id) }
  | .updateTransforms contentsScale => some (self.updateRasterCompositorTransforms contentsScale)
  | .latch id contentsScale =>
      some { self with
        layers := self.layers.modify id fun layer =>
          layer.apply (max contentsScale 1) (self.handles id) }
  | .draw surfaces contentsScale =>
      some ((self.synchronized surfaces contentsScale).updateRasterCompositorTransforms
        contentsScale)

/-! ## Where content is shown -/

/-- Every layer that shows something was placed for what it shows, and for a transform of its
handle; that puts the points of the canvas where the transform does. -/
def Placed (self : RasterCompositors K) : Prop :=
  ∀ id layer captured raster, self.layers id = some layer →
    layer.content = some (captured, raster) →
    ∃ current ∈ self.published id, ∃ contentsScale,
      layer.position = RasterCompositorLayer.positionFor captured raster layer.clipBounds
        contentsScale current ∧
      layer.ratio = RasterCompositorLayer.ratioFor captured current ∧
      (layer.contentsScale = contentsScale →
        ∀ p, layer.shown captured raster p = current.apply p)

/-- A surface is drawn, unless its layer shows nothing or just what would be drawn. -/
def Redrawn (contentsScale : K) : List (CompositorSurface K × Bool) →
    (PartialMap UInt64 fun _ => RasterCompositorLayer K) → Prop
  | [], _ => True
  | entry :: rest, layers =>
      (entry.2 = false → ∀ layer, layers entry.1.id = some layer → layer.content ≠ none →
        layer.capturedTransform = entry.1.capturedTransform ∧
          layer.rasterBounds = entry.1.rasterBounds) ∧
        Redrawn contentsScale rest (synchronizeSurfaces contentsScale [entry] layers)

/-- Surfaces are drawn when they are captured otherwise, and then the layers that show
something and have to be placed would cover the clip. -/
def Draws (self : RasterCompositors K) : CompositorEvent K → Prop
  | .draw surfaces contentsScale =>
      Redrawn contentsScale surfaces (self.retained surfaces) ∧
        ∀ id layer, (self.synchronized surfaces contentsScale).layers id = some layer →
          layer.content ≠ none → layer.lastApplied = none →
            layer.covers (max contentsScale 1) (self.handles id).2 = true
  | _ => True

/-- The layer shows what was captured, and was placed for it. -/
structure Captured (published : List (CompositorTransform K)) (layer : RasterCompositorLayer K) :
    Prop where
  content : ∀ captured raster, layer.content = some (captured, raster) →
    captured = layer.capturedTransform ∧ raster = layer.rasterBounds
  applied : layer.lastApplied ≠ none → ∃ current ∈ published, ∃ contentsScale,
    layer.position = RasterCompositorLayer.positionFor layer.capturedTransform layer.rasterBounds
      layer.clipBounds contentsScale current ∧
    layer.ratio = RasterCompositorLayer.ratioFor layer.capturedTransform current

/-- A layer that shows something has been placed. -/
structure Aligned (compositors : RasterCompositors K) : Prop where
  current : ∀ id, (compositors.handles id).2 ∈ compositors.published id
  captured : ∀ id layer, compositors.layers id = some layer → Captured (compositors.published id) layer
  placed : ∀ id layer, compositors.layers id = some layer → layer.content ≠ none →
    layer.lastApplied ≠ none

theorem aligned_new (transforms : UInt64 → CompositorTransform K) : (new transforms).Aligned where
  current id := List.mem_singleton_self _
  captured id layer found := by cases found
  placed id layer found := by cases found

variable {self next : RasterCompositors K} {layer : RasterCompositorLayer K}
  {published : List (CompositorTransform K)}

/-- The position is such that the points are where the transform puts them. -/
theorem shown_eq {captured current : CompositorTransform K} {raster : Bounds K}
    (position : layer.position = RasterCompositorLayer.positionFor captured raster
      layer.clipBounds layer.contentsScale current)
    (ratio : layer.ratio = RasterCompositorLayer.ratioFor captured current) (p : Point K) :
    layer.shown captured raster p = current.apply p := by
  have undone : RasterCompositorLayer.ratioFor captured current * captured.scale =
      current.scale :=
    div_mul_cancel₀ _ (ne_of_gt captured.positive)
  rw [RasterCompositorLayer.shown, position, ratio, RasterCompositorLayer.positionFor,
    CompositorTransform.apply, CompositorTransform.apply, Point.mk.injEq]
  constructor
  · linear_combination p.x * undone
  · linear_combination p.y * undone

theorem Aligned.isPlaced (aligned : self.Aligned) : self.Placed := by
  intro id layer captured raster found shows_
  have isCaptured := aligned.captured id layer found
  have showsSomething : layer.content ≠ none := by
    rw [shows_]
    exact Option.some_ne_none _
  rcases isCaptured.content captured raster shows_ with ⟨rfl, rfl⟩
  rcases isCaptured.applied (aligned.placed id layer found showsSomething) with
    ⟨current, isCurrent, contentsScale, position, ratio⟩
  refine ⟨current, isCurrent, contentsScale, position, ratio, ?_⟩
  rintro rfl
  exact shown_eq position ratio

/-! ## Placing the layers -/

theorem Captured.apply (captured : Captured published layer) {contentsScale : K}
    {snapshot : Nat × CompositorTransform K} (current : snapshot.2 ∈ published) :
    Captured published (layer.apply contentsScale snapshot) := by
  rw [RasterCompositorLayer.apply]
  split
  next => exact captured
  next =>
    split
    next =>
      constructor
      · exact captured.content
      · exact fun _ => ⟨snapshot.2, current, contentsScale, rfl, rfl⟩
    next => exact captured

/-- A layer stays placed, and is placed when it would cover the clip. -/
theorem placed_apply {contentsScale : K} {snapshot : Nat × CompositorTransform K}
    (placed : layer.lastApplied ≠ none ∨ layer.covers contentsScale snapshot.2 = true) :
    (layer.apply contentsScale snapshot).lastApplied ≠ none := by
  rw [RasterCompositorLayer.apply]
  split
  next same =>
    intro none
    rw [none] at same
    cases same
  next =>
    split
    next => exact Option.some_ne_none _
    next uncovered =>
      rcases placed with applied | covers
      · exact applied
      · exact absurd covers uncovered

theorem content_apply (contentsScale : K) (snapshot : Nat × CompositorTransform K) :
    (layer.apply contentsScale snapshot).content = layer.content := by
  rw [RasterCompositorLayer.apply]
  split
  next => rfl
  next =>
    split
    next => rfl
    next => rfl

theorem capturedTransform_apply (contentsScale : K) (snapshot : Nat × CompositorTransform K) :
    (layer.apply contentsScale snapshot).capturedTransform = layer.capturedTransform := by
  rw [RasterCompositorLayer.apply]
  split
  next => rfl
  next =>
    split
    next => rfl
    next => rfl

/-- All layers are placed that have to be. -/
theorem Aligned.updateTransforms {contentsScale : K}
    (current : ∀ id, (self.handles id).2 ∈ self.published id)
    (captured : ∀ id layer, self.layers id = some layer → Captured (self.published id) layer)
    (placed : ∀ id layer, self.layers id = some layer → layer.content ≠ none →
      layer.lastApplied ≠ none ∨
        layer.covers (max contentsScale 1) (self.handles id).2 = true) :
    (self.updateRasterCompositorTransforms contentsScale).Aligned where
  current := current
  captured id layer found := by
    rcases Option.map_eq_some_iff.mp found with ⟨before, foundBefore, rfl⟩
    exact (captured id before foundBefore).apply (current id)
  placed id layer found shows_ := by
    rcases Option.map_eq_some_iff.mp found with ⟨before, foundBefore, rfl⟩
    rw [content_apply] at shows_
    exact placed_apply (placed id before foundBefore shows_)

/-! ## Capturing the surfaces -/

theorem Captured.synchronize {surface : CompositorSurface K} {drawn : Bool}
    (captured : Captured published layer) (contentsScale : K)
    (redrawn : drawn = false → layer.content ≠ none →
      layer.capturedTransform = surface.capturedTransform ∧
        layer.rasterBounds = surface.rasterBounds) :
    Captured published (layer.synchronize surface drawn contentsScale) := by
  constructor
  · intro shown raster shows_
    rw [RasterCompositorLayer.synchronize] at shows_ ⊢
    cases drawn with
    | true =>
        rcases Prod.mk.inj (Option.some.inj shows_) with ⟨rfl, rfl⟩
        exact ⟨rfl, rfl⟩
    | false =>
        rcases captured.content shown raster shows_ with ⟨rfl, rfl⟩
        apply redrawn rfl
        intro none
        cases none.symm.trans shows_
  · intro applied
    rw [RasterCompositorLayer.synchronize] at applied ⊢
    dsimp only at applied ⊢
    split at applied
    next => exact absurd rfl applied
    next unchanged =>
      rw [not_or, not_or, not_not, not_not, not_not] at unchanged
      rw [← unchanged.1, ← unchanged.2.1, ← unchanged.2.2]
      exact captured.applied applied

theorem captured_new (surface : CompositorSurface K) (contentsScale : K) :
    Captured published (.new surface contentsScale) where
  content captured raster shows_ := by cases shows_
  applied applied := absurd rfl applied

theorem synchronizeSurfaces_singleton (contentsScale : K)
    (entry : CompositorSurface K × Bool)
    (layers : PartialMap UInt64 fun _ => RasterCompositorLayer K) (id : UInt64) :
    synchronizeSurfaces contentsScale [entry] layers id =
      if id = entry.1.id then
        some (((layers id).getD (.new entry.1 (max contentsScale 1))).synchronize entry.1 entry.2
          (max contentsScale 1))
      else layers id := by
  split
  next same =>
    subst same
    exact PartialMap.insert_self ..
  next differs => exact PartialMap.insert_of_ne _ _ differs

theorem captured_synchronizeSurfaces {contentsScale : K}
    {publishedTransforms : UInt64 → List (CompositorTransform K)}
    {surfaces : List (CompositorSurface K × Bool)}
    {layers : PartialMap UInt64 fun _ => RasterCompositorLayer K}
    (captured : ∀ id layer, layers id = some layer → Captured (publishedTransforms id) layer)
    (redrawn : Redrawn contentsScale surfaces layers) :
    ∀ id layer, synchronizeSurfaces contentsScale surfaces layers id = some layer →
      Captured (publishedTransforms id) layer := by
  induction surfaces generalizing layers with
  | nil => exact captured
  | cons entry surfaces ih =>
      rcases redrawn with ⟨drawn, rest⟩
      apply ih _ rest
      intro id layer found
      rw [synchronizeSurfaces_singleton] at found
      split at found
      next same =>
        rcases Option.some.inj found with rfl
        cases there : layers id with
        | none =>
            apply (captured_new _ _).synchronize
            exact fun _ shows_ => absurd rfl shows_
        | some layer =>
            apply (captured id layer there).synchronize
            exact fun undrawn => drawn undrawn layer (same ▸ there)
      next => exact captured id layer found

/-! ## Runs -/

theorem Aligned.step (aligned : self.Aligned) {event : CompositorEvent K}
    (draws : self.Draws event) (steps : self.step event = some next) : next.Aligned := by
  cases event with
  | update id transform =>
      rw [RasterCompositors.step] at steps
      split at steps
      next =>
        rcases Option.some.inj steps with rfl
        exact aligned
      next =>
        rcases Option.some.inj steps with rfl
        have grows : ∀ other current, current ∈ self.published other →
            current ∈ Function.update self.published id (transform :: self.published id)
              other := by
          intro other current member
          by_cases same : other = id
          · rw [same] at member ⊢
            rw [Function.update_self]
            exact List.mem_cons_of_mem _ member
          · rw [Function.update_of_ne same]
            exact member
        constructor
        · intro other
          by_cases same : other = id
          · rw [same]
            simp only [Function.update_self]
            exact List.mem_cons_self
          · simp only [Function.update_of_ne same]
            exact aligned.current other
        · intro other layer found
          have captured := aligned.captured other layer found
          constructor
          · exact captured.content
          · intro applied
            rcases captured.applied applied with ⟨current, member, placed⟩
            exact ⟨current, grows other current member, placed⟩
        · exact aligned.placed
  | updateTransforms contentsScale =>
      rcases Option.some.inj steps with rfl
      apply Aligned.updateTransforms aligned.current aligned.captured
      exact fun id layer found shows_ => Or.inl (aligned.placed id layer found shows_)
  | latch id contentsScale =>
      rcases Option.some.inj steps with rfl
      have latched : ∀ other layer, self.layers.modify id (fun layer =>
          layer.apply (max contentsScale 1) (self.handles id)) other = some layer →
          ∃ before, self.layers other = some before ∧ (layer = before ∨ other = id ∧
            layer = before.apply (max contentsScale 1) (self.handles id)) := by
        intro other layer found
        by_cases same : other = id
        · subst same
          rw [PartialMap.modify_self] at found
          rcases Option.map_eq_some_iff.mp found with ⟨before, there, rfl⟩
          exact ⟨before, there, Or.inr ⟨rfl, rfl⟩⟩
        · rw [PartialMap.modify_of_ne _ _ same] at found
          exact ⟨layer, found, Or.inl rfl⟩
      constructor
      · exact aligned.current
      · intro other layer found
        rcases latched other layer found with ⟨before, there, rfl | ⟨rfl, rfl⟩⟩
        · exact aligned.captured other layer there
        · exact (aligned.captured other before there).apply (aligned.current other)
      · intro other layer found shows_
        rcases latched other layer found with ⟨before, there, rfl | ⟨rfl, rfl⟩⟩
        · exact aligned.placed other layer there shows_
        · rw [content_apply] at shows_
          exact placed_apply (Or.inl (aligned.placed other before there shows_))
  | draw surfaces contentsScale =>
      rcases Option.some.inj steps with rfl
      rcases draws with ⟨redrawn, covers⟩
      apply Aligned.updateTransforms
      · exact aligned.current
      · apply captured_synchronizeSurfaces _ redrawn
        intro id layer found
        rw [retained, Option.ite_none_right_eq_some] at found
        exact aligned.captured id layer found.2
      · intro id layer found shows_
        by_cases applied : layer.lastApplied = none
        · exact Or.inr (covers id layer found shows_ applied)
        · exact Or.inl applied

/-- Layers are placed for what they show, in every run that draws so. -/
theorem run_placed {transforms : UInt64 → CompositorTransform K} {events : List (CompositorEvent K)}
    (run : Run step Draws (new transforms) events self) : self.Placed := by
  have aligned : self.Aligned := by
    apply run.invariant fun _ compositors => compositors.Aligned
    · exact aligned_new transforms
    · exact fun aligned draws steps => aligned.step draws steps
  exact aligned.isPlaced

/-- A clip of 10 by 10 at the origin, with 90 more of the surface to the right and below. -/
def scaledSurface (scale : Nat) : CompositorSurface ℚ where
  id := 1
  capturedTransform := ⟨scale + 1, ⟨0, 0⟩, Nat.cast_add_one_pos scale⟩
  clipBounds := ⟨⟨0, 0⟩, ⟨10, 10⟩⟩
  rasterBounds := ⟨⟨0, 0⟩, ⟨100, 100⟩⟩

def firstTransform : CompositorTransform ℚ :=
  (scaledSurface 0).capturedTransform

/-- The layer after the surface has been drawn once. -/
def drawnLayer : RasterCompositorLayer ℚ :=
  ((RasterCompositorLayer.new (scaledSurface 0) (max 1 1)).synchronize (scaledSurface 0) true
    (max 1 1)).apply (max 1 1) (0, firstTransform)

theorem covers_scaledSurface {scale : Nat} (le : scale ≤ 1) (drawn : Bool)
    (layer : RasterCompositorLayer ℚ) :
    (layer.synchronize (scaledSurface scale) drawn (max 1 1)).covers (max 1 1) firstTransform =
      true := by
  interval_cases scale <;>
    norm_num [RasterCompositorLayer.covers, RasterCompositorLayer.synchronize, firstTransform,
      scaledSurface, RasterCompositorLayer.surfaceCoversClip, RasterCompositorLayer.positionFor,
      RasterCompositorLayer.ratioFor]

theorem run_placed_drawn :
    ∃ compositors : RasterCompositors ℚ, compositors.Placed ∧
      ∃ layer, compositors.layers 1 = some layer ∧ layer.content ≠ none := by
  have runs : ∃ compositors : RasterCompositors ℚ,
      Run step Draws (new fun _ => firstTransform) [.draw [(scaledSurface 0, true)] 1]
        compositors ∧
      ∃ layer, compositors.layers 1 = some layer ∧ layer.content ≠ none := by
    refine ⟨_, .cons ?_ rfl .nil, _, rfl, ?_⟩
    · constructor
      · exact ⟨Bool.noConfusion, trivial⟩
      · intro id layer found _ _
        replace found := (synchronizeSurfaces_singleton 1 _ _ id).symm.trans found
        split at found
        next =>
          rcases Option.some.inj found with rfl
          exact covers_scaledSurface (Nat.zero_le 1) true _
        next =>
          rw [retained, Option.ite_none_right_eq_some] at found
          cases found.2
    · rw [content_apply]
      exact Option.some_ne_none _
  rcases runs with ⟨compositors, run, shows_⟩
  exact ⟨compositors, run_placed run, shows_⟩

theorem ratio_apply {contentsScale : K} {snapshot : Nat × CompositorTransform K}
    (missing : layer.lastApplied = none)
    (covers : layer.covers contentsScale snapshot.2 = true) :
    (layer.apply contentsScale snapshot).ratio =
      RasterCompositorLayer.ratioFor layer.capturedTransform snapshot.2 := by
  rw [RasterCompositorLayer.apply, missing]
  simp only [Option.any_none, Bool.false_eq_true, if_false, covers, if_true]

/-- A surface is captured at twice the scale but not drawn, and what its layer showed before is
shown at half its size. -/
theorem not_run_placed :
    ¬ ∀ (compositors : RasterCompositors ℚ) (events : List (CompositorEvent ℚ)),
      Run step (fun _ _ => True) (new fun _ => firstTransform) events compositors →
        compositors.Placed := by
  intro placed
  have halves : ∃ compositors : RasterCompositors ℚ,
      [CompositorEvent.draw [(scaledSurface 0, true)] 1,
        .draw [(scaledSurface 1, false)] 1].foldlM step (new fun _ => firstTransform) =
          some compositors ∧
      compositors.published 1 = [firstTransform] ∧
      compositors.layers 1 = some ((drawnLayer.synchronize (scaledSurface 1) false (max 1 1)).apply
        (max 1 1) (0, firstTransform)) :=
    ⟨_, rfl, rfl, rfl⟩
  have captured : drawnLayer.capturedTransform = firstTransform := by
    rw [drawnLayer, capturedTransform_apply]
    rfl
  rcases halves with ⟨compositors, runs, published, found⟩
  have showsStill : ((drawnLayer.synchronize (scaledSurface 1) false (max 1 1)).apply (max 1 1)
      (0, firstTransform)).content = some (firstTransform, (scaledSurface 0).rasterBounds) := by
    rw [content_apply, RasterCompositorLayer.synchronize, drawnLayer]
    exact content_apply ..
  rcases placed compositors _ (.of_foldlM runs) 1 _ _ _ found showsStill with
    ⟨current, isCurrent, _, _, ratio, _⟩
  rw [published, List.mem_singleton] at isCurrent
  have recaptured : drawnLayer.capturedTransform ≠ (scaledSurface 1).capturedTransform := by
    rw [captured]
    intro same
    have scales := congrArg CompositorTransform.scale same
    norm_num [firstTransform, scaledSurface] at scales
  have missing : (drawnLayer.synchronize (scaledSurface 1) false (max 1 1)).lastApplied = none :=
    if_pos (Or.inl recaptured)
  rw [ratio_apply missing (covers_scaledSurface le_rfl false drawnLayer), isCurrent] at ratio
  norm_num [RasterCompositorLayer.ratioFor, RasterCompositorLayer.synchronize, firstTransform,
    scaledSurface] at ratio

end RasterCompositors

end Gpui
