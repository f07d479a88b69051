import Gpui.Scene.Primitive
import Gpui.Library.StableSort

/-!
# Scenes

A scene collects the primitives painted in one frame, one vector per kind,
together with the log of paint operations that produced them.  Draw orders come
from the bounds tree, or from the innermost open layer.

Panics (slicing out of bounds, `unreachable!`) yield `none`.
-/

namespace Gpui

open Gpui.Library

inductive PaintOperation (K : Type) where
  | primitive (primitive : Primitive K)
  | startLayer (bounds : Bounds K)
  | endLayer
deriving DecidableEq, Repr

/-- A surface composited on its own, with the finished scene it shows. -/
structure RasterCompositorSurface (K Scene : Type) where
  handle : Nat
  clipBounds : Bounds K
  rasterBounds : Bounds K
  scene : Scene

structure Scene (K : Type) where
  paintOperations : List (PaintOperation K)
  primitiveBounds : BoundsTree K
  layerStack : List DrawOrder
  shadows : List (Shadow K)
  quads : List (Quad K)
  paths : List (Path K)
  underlines : List (Underline K)
  monochromeSprites : List (MonochromeSprite K)
  polychromeSprites : List (PolychromeSprite K)
  surfaces : List (PaintSurface K)
  rasterTiles : List (RasterTile K)
  rasterCompositorSurfaces : List (RasterCompositorSurface K (Scene K))

namespace Primitive

variable {K : Type}

/-- The order a primitive takes when it is stored; a path is also numbered. -/
def withOrder (order : DrawOrder) (pathId : Nat) : Primitive K → Primitive K
  | .shadow item => .shadow { item with order }
  | .quad item => .quad { item with order }
  | .path item => .path { item with order, id := pathId }
  | .underline item => .underline { item with order }
  | .monochromeSprite item => .monochromeSprite { item with order }
  | .polychromeSprite item => .polychromeSprite { item with order }
  | .surface item => .surface { item with order }
  | .rasterTile item => .rasterTile { item with order }

@[simp]
theorem withOrder_order (order : DrawOrder) (pathId : Nat) (primitive : Primitive K) :
    (primitive.withOrder order pathId).order = order := by
  cases primitive <;> rfl

@[simp]
theorem withOrder_kind (order : DrawOrder) (pathId : Nat) (primitive : Primitive K) :
    (primitive.withOrder order pathId).kind = primitive.kind := by
  cases primitive <;> rfl

end Primitive

namespace Scene

variable {K : Type}

/-- `Scene::default`. -/
def empty : Scene K where
  paintOperations := []
  primitiveBounds := .empty
  layerStack := []
  shadows := []
  quads := []
  paths := []
  underlines := []
  monochromeSprites := []
  polychromeSprites := []
  surfaces := []
  rasterTiles := []
  rasterCompositorSurfaces := []

def clear (self : Scene K) : Scene K where
  paintOperations := []
  primitiveBounds := self.primitiveBounds.clear
  layerStack := []
  shadows := []
  quads := []
  paths := []
  underlines := []
  monochromeSprites := []
  polychromeSprites := []
  surfaces := []
  rasterTiles := []
  rasterCompositorSurfaces := []

def len (self : Scene K) : Nat :=
  self.paintOperations.length

/-- The vector of one kind. -/
def vector (self : Scene K) : PrimitiveKind → List (Primitive K)
  | .shadow => self.shadows.map .shadow
  | .quad => self.quads.map .quad
  | .path => self.paths.map .path
  | .underline => self.underlines.map .underline
  | .monochromeSprite => self.monochromeSprites.map .monochromeSprite
  | .polychromeSprite => self.polychromeSprites.map .polychromeSprite
  | .surface => self.surfaces.map .surface
  | .rasterTile => self.rasterTiles.map .rasterTile

/-- Push a primitive on the vector of its kind. -/
def push (self : Scene K) : Primitive K → Scene K
  | .shadow item => { self with shadows := self.shadows ++ [item] }
  | .quad item => { self with quads := self.quads ++ [item] }
  | .path item => { self with paths := self.paths ++ [item] }
  | .underline item => { self with underlines := self.underlines ++ [item] }
  | .monochromeSprite item =>
      { self with monochromeSprites := self.monochromeSprites ++ [item] }
  | .polychromeSprite item =>
      { self with polychromeSprites := self.polychromeSprites ++ [item] }
  | .surface item => { self with surfaces := self.surfaces ++ [item] }
  | .rasterTile item => { self with rasterTiles := self.rasterTiles ++ [item] }

def logOperation (self : Scene K) (operation : PaintOperation K) : Scene K :=
  { self with paintOperations := self.paintOperations ++ [operation] }

theorem kind_of_mem_vector {self : Scene K} {kind : PrimitiveKind} {primitive : Primitive K}
    (member : primitive ∈ self.vector kind) : primitive.kind = kind := by
  cases kind <;>
    · simp only [vector, List.mem_map] at member
      obtain ⟨item, -, rfl⟩ := member
      rfl

theorem push_vector (self : Scene K) (primitive : Primitive K) (kind : PrimitiveKind) :
    (self.push primitive).vector kind =
      self.vector kind ++ if primitive.kind = kind then [primitive] else [] := by
  cases primitive <;> cases kind <;> simp [push, vector, Primitive.kind]

@[simp]
theorem push_primitiveBounds (self : Scene K) (primitive : Primitive K) :
    (self.push primitive).primitiveBounds = self.primitiveBounds := by
  cases primitive <;> rfl

@[simp]
theorem push_layerStack (self : Scene K) (primitive : Primitive K) :
    (self.push primitive).layerStack = self.layerStack := by
  cases primitive <;> rfl

@[simp]
theorem push_paintOperations (self : Scene K) (primitive : Primitive K) :
    (self.push primitive).paintOperations = self.paintOperations := by
  cases primitive <;> rfl

@[simp]
theorem logOperation_vector (self : Scene K) (operation : PaintOperation K)
    (kind : PrimitiveKind) : (self.logOperation operation).vector kind = self.vector kind := by
  cases kind <;> rfl

/-! ## Painting -/

section Painting

variable [Field K] [LinearOrder K]

/-- The order of the innermost open layer, or else a new order for `bounds`. -/
def takeOrder (self : Scene K) (bounds : Bounds K) : Option (DrawOrder × Scene K) :=
  match self.layerStack.getLast? with
  | some order => some (order, self)
  | none => do
      let (order, primitiveBounds) ← self.primitiveBounds.insert bounds
      return (order, { self with primitiveBounds })

def pushLayer (self : Scene K) (bounds : Bounds K) : Option (Scene K) := do
  let (order, primitiveBounds) ← self.primitiveBounds.insert bounds
  return { self with primitiveBounds, layerStack := self.layerStack ++ [order] }
    |>.logOperation (.startLayer bounds)

def popLayer (self : Scene K) : Scene K :=
  { self with layerStack := self.layerStack.dropLast } |>.logOperation .endLayer

/-- What of a primitive its content mask lets through. -/
def clippedBounds (primitive : Primitive K) : Bounds K :=
  primitive.bounds.intersect primitive.contentMask.bounds

/-- The end of `insert_primitive`: set the order, store and log. -/
def store (self : Scene K) (order : DrawOrder) (primitive : Primitive K) : Scene K :=
  let primitive := primitive.withOrder order self.paths.length
  (self.push primitive).logOperation (.primitive primitive)

def insertPrimitive (self : Scene K) (primitive : Primitive K) : Option (Scene K) :=
  if (clippedBounds primitive).isEmpty then some self
  else do
    let (order, self) ← self.takeOrder (clippedBounds primitive)
    return self.store order primitive

/-- The slice `operations[start..stop]`. -/
def slice {α : Type} (items : List α) (start stop : Nat) : Option (List α) :=
  if start ≤ stop ∧ stop ≤ items.length then some ((items.drop start).take (stop - start))
  else none

/-- One iteration of `replay`. -/
def replayOperation (self : Scene K) : PaintOperation K → Option (Scene K)
  | .primitive primitive => self.insertPrimitive primitive
  | .startLayer bounds => self.pushLayer bounds
  | .endLayer => some self.popLayer

def replay (self : Scene K) (start stop : Nat) (prevScene : Scene K) : Option (Scene K) := do
  let operations ← slice prevScene.paintOperations start stop
  operations.foldlM replayOperation self

/-- One iteration of `replay_vector_transform`. -/
def replayVectorOperation (scale : K) (translation : Point K) (self : Scene K) :
    PaintOperation K → Option (Scene K)
  | .primitive primitive => self.insertPrimitive (primitive.transformed scale translation)
  | .startLayer bounds => self.pushLayer (transformBounds bounds scale translation)
  | .endLayer => some self.popLayer

def replayVectorTransform (self : Scene K) (operations : List (PaintOperation K)) (scale : K)
    (translation : Point K) : Option (Scene K) :=
  operations.foldlM (replayVectorOperation scale translation) self

/-- One iteration of `replay_cached_text`.  Nothing is logged. -/
def replayCachedTextOperation (originDelta : Point K) (contentMask : ContentMask K)
    (transformation : TransformationMatrix K) (self : Scene K) :
    PaintOperation K → Option (Scene K)
  | .startLayer templateBounds =>
      let bounds := { templateBounds with origin := templateBounds.origin.add originDelta }
      let clippedBounds := bounds.intersect contentMask.bounds
      if clippedBounds.isEmpty then
        some { self with
          layerStack := self.layerStack ++ [self.layerStack.getLast?.getD DrawOrder.MAX] }
      else do
        let (order, primitiveBounds) ← self.primitiveBounds.insert clippedBounds
        return { self with primitiveBounds, layerStack := self.layerStack ++ [order] }
  | .endLayer => some { self with layerStack := self.layerStack.dropLast }
  | .primitive (.monochromeSprite template) => do
      let bounds := { template.bounds with origin := template.bounds.origin.add originDelta }
      let (order, self) ← self.takeOrder bounds
      return self.push
        (.monochromeSprite { template with order, bounds, contentMask, transformation })
  | .primitive (.polychromeSprite template) => do
      let bounds := { template.bounds with origin := template.bounds.origin.add originDelta }
      let (order, self) ← self.takeOrder bounds
      return self.push
        (.polychromeSprite { template with order, bounds, contentMask, transformation })
  | .primitive _ => none

def replayCachedText (self : Scene K) (operations : List (PaintOperation K))
    (originDelta : Point K) (contentMask : ContentMask K)
    (transformation : TransformationMatrix K) : Option (Scene K) :=
  operations.foldlM (replayCachedTextOperation originDelta contentMask transformation) self

end Painting

section Storing

variable [Field K] [LinearOrder K]

theorem insertPrimitive_of_isEmpty {self : Scene K} {primitive : Primitive K}
    (clipped : (clippedBounds primitive).isEmpty = true) :
    self.insertPrimitive primitive = some self := by
  simp [insertPrimitive, clipped]

theorem insertPrimitive_of_takeOrder {self taken : Scene K} {primitive : Primitive K}
    {order : DrawOrder} (kept : (clippedBounds primitive).isEmpty = false)
    (took : self.takeOrder (clippedBounds primitive) = some (order, taken)) :
    self.insertPrimitive primitive = some (taken.store order primitive) := by
  simp [insertPrimitive, kept, took]

end Storing

@[simp]
theorem store_primitiveBounds (self : Scene K) (order : DrawOrder) (primitive : Primitive K) :
    (self.store order primitive).primitiveBounds = self.primitiveBounds :=
  push_primitiveBounds self _

@[simp]
theorem store_layerStack (self : Scene K) (order : DrawOrder) (primitive : Primitive K) :
    (self.store order primitive).layerStack = self.layerStack :=
  push_layerStack self _

theorem store_vector (self : Scene K) (order : DrawOrder) (primitive : Primitive K)
    (kind : PrimitiveKind) :
    (self.store order primitive).vector kind =
      self.vector kind ++
        if primitive.kind = kind then [primitive.withOrder order self.paths.length] else [] := by
  rw [store, logOperation_vector, push_vector, Primitive.withOrder_kind]

/-! ## Finishing -/

def finish (self : Scene K) : Scene K :=
  { self with
    shadows := sortByKey Shadow.order self.shadows
    quads := sortByKey Quad.order self.quads
    paths := sortByKey Path.order self.paths
    underlines := sortByKey Underline.order self.underlines
    monochromeSprites :=
      sortByKey (fun sprite => toLex (sprite.order, sprite.tile.tileId)) self.monochromeSprites
    polychromeSprites :=
      sortByKey (fun sprite => toLex (sprite.order, sprite.tile.tileId)) self.polychromeSprites
    surfaces := sortByKey PaintSurface.order self.surfaces
    rasterTiles := sortByKey RasterTile.order self.rasterTiles }

/-- Sorting a typed vector, seen through its constructor. -/
theorem sorted_map {α κ : Type} [LinearOrder κ] (key : α → κ) (wrap : α → Primitive K)
    (orders : ∀ first second : α, key first ≤ key second →
      (wrap first).order ≤ (wrap second).order) (items : List α) :
    ((sortByKey key items).map wrap).Perm (items.map wrap) ∧
      ((sortByKey key items).map wrap).Pairwise fun first second =>
        first.order ≤ second.order := by
  refine ⟨(sortByKey_perm key items).map wrap, List.pairwise_map.mpr ?_⟩
  exact (sortByKey_pairwise key items).imp fun {first second} => orders first second

/-- Finishing permutes every vector into one sorted by draw order. -/
theorem finish_vector (self : Scene K) (kind : PrimitiveKind) :
    (self.finish.vector kind).Perm (self.vector kind) ∧
      (self.finish.vector kind).Pairwise fun first second => first.order ≤ second.order := by
  have lexOrder : ∀ {first second : DrawOrder ×ₗ UInt32}, first ≤ second →
      (ofLex first).1 ≤ (ofLex second).1 := by
    intro first second below
    rcases Prod.Lex.le_iff.mp below with less | ⟨equal, -⟩
    · exact le_of_lt less
    · exact le_of_eq equal
  cases kind with
  | monochromeSprite =>
      exact sorted_map (fun sprite : MonochromeSprite K => toLex (sprite.order, sprite.tile.tileId))
        .monochromeSprite (fun _ _ below => lexOrder below) _
  | polychromeSprite =>
      exact sorted_map (fun sprite : PolychromeSprite K => toLex (sprite.order, sprite.tile.tileId))
        .polychromeSprite (fun _ _ below => lexOrder below) _
  | shadow => exact sorted_map _ _ (fun _ _ below => below) _
  | quad => exact sorted_map _ _ (fun _ _ below => below) _
  | path => exact sorted_map _ _ (fun _ _ below => below) _
  | underline => exact sorted_map _ _ (fun _ _ below => below) _
  | surface => exact sorted_map _ _ (fun _ _ below => below) _
  | rasterTile => exact sorted_map _ _ (fun _ _ below => below) _

theorem finish_mem_vector {self : Scene K} {kind : PrimitiveKind} {primitive : Primitive K} :
    primitive ∈ self.finish.vector kind ↔ primitive ∈ self.vector kind :=
  (finish_vector self kind).1.mem_iff

end Scene

end Gpui
