import Gpui.RasterCache.Accounting

/-!
# Drawing with raster caches

A frame is painted, which looks tiles up, and then drawn: the scenes of the compositor
surfaces first and the scene of the window last, each by `draw_primitives` into a drawable,
if there is one.  That prepares and encodes the updates and the batches of the scene, evicts
what is over the soft limit, and encodes the scene itself.  When an encoding fails, all of it
is tried again with a larger buffer or given up.

What a command buffer draws counts when the buffer is submitted.  The deferred command
buffers of a scene are submitted with the main one, or later in the frame; a comparison that
fails fails like the encoding before it.

The scene of an update or of a batch matters through the cached tiles it composes.
-/

namespace Gpui

open Library

structure RasterTileUpdate where
  textureKey : CachedRasterTextureKey
  textureSize : Size Int
  gutter : Int
  /-- `scene.raster_tiles`. -/
  tiles : Finset CachedRasterTextureKey

structure RasterTileUpdateBatch extends RasterTargets where
  /-- The size of the texture for all targets. -/
  size : Size Int
  /-- `scene.raster_tiles`. -/
  tiles : Finset CachedRasterTextureKey

structure RasterScene where
  tiles : Finset CachedRasterTextureKey
  updates : List RasterTileUpdate
  batches : List RasterTileUpdateBatch

/-- How far `draw_primitives` has come with a scene. -/
inductive DrawStage where
  | prepareUpdate (update : RasterTileUpdate) (rest : List RasterTileUpdate)
  | encodeUpdate (update : RasterTileUpdate) (texture : Nat) (rest : List RasterTileUpdate)
  | prepareBatch (batch : RasterTileUpdateBatch) (rest : List RasterTileUpdateBatch)
  | encodeBatch (batch : RasterTileUpdateBatch) (texture : Nat)
      (rest : List RasterTileUpdateBatch)
  | evictOffscreen
  | encodeScene

/-- The tiles that are drawn in a texture, by where they are in it. -/
abbrev TextureContent : Type :=
  List (Point Int × CachedRasterTextureKey)

structure RasterDrawing where
  renderer : RasterRenderer
  /-- The scenes of the frame that have not been drawn. -/
  scenes : List RasterScene
  /-- What is being done with the first of them. -/
  stage : Option DrawStage
  /-- The hits since the last frame was drawn, which no code reads. -/
  hits : Finset CachedRasterTextureKey
  /-- What has been submitted for the textures, which no code reads. -/
  contents : Nat → TextureContent
  /-- What will have been when the command buffers are submitted, which no code reads. -/
  encoded : Nat → TextureContent
  /-- The tiles that were entered for the scene, and whether by a batch, which no code
  reads. -/
  entered : PartialMap CachedRasterTextureKey fun _ => Bool

inductive DrawEvent where
  | lookup (key : CachedRasterTextureKey)
  | release (cacheId : UInt64)
  | dropOwner (cacheId : UInt64)
  | draw (scenes : List RasterScene)
  /-- There is no drawable for the scene. -/
  | skip
  | begin_
  | prepare (evictions : List CachedRasterTextureKey)
  | encode
  /-- An encoding fails. -/
  | fail (giveUp : Bool)
  | evictOffscreen (evictions : List (UInt64 × List CachedRasterTextureKey))
  | submit

namespace RasterScene

/-- The tiles that some encoding for the scene needs. -/
def updateTiles (updates : List RasterTileUpdate) : Finset CachedRasterTextureKey :=
  updates.foldr (fun update tiles => update.tiles ∪ tiles) ∅

def batchTiles (batches : List RasterTileUpdateBatch) : Finset CachedRasterTextureKey :=
  batches.foldr (fun batch tiles => batch.tiles ∪ tiles) ∅

def allTiles (self : RasterScene) : Finset CachedRasterTextureKey :=
  updateTiles self.updates ∪ (batchTiles self.batches ∪ self.tiles)

/-- `protected`. -/
def isProtected (self : RasterScene) : Finset CachedRasterTextureKey :=
  self.tiles ∪ batchTiles self.batches ∪ (self.updates.map RasterTileUpdate.textureKey).toFinset ∪
    (self.batches.flatMap fun batch => batch.targets.map batch.textureKey).toFinset

/-- The caches that have a soft limit in `cache_limits`. -/
def caches (self : RasterScene) : List UInt64 :=
  self.updates.map (fun update => update.textureKey.cacheId) ++
    self.batches.map fun batch => batch.cacheId

def atBatches : List RasterTileUpdateBatch → DrawStage
  | [] => .evictOffscreen
  | batch :: rest => .prepareBatch batch rest

def atUpdates (self : RasterScene) : List RasterTileUpdate → DrawStage
  | [] => atBatches self.batches
  | update :: rest => .prepareUpdate update rest

end RasterScene

/-- The tiles that a batch draws. -/
def RasterTargets.content (self : RasterTargets) : TextureContent :=
  self.targets.map fun target => (target.source, self.textureKey target)

namespace RasterDrawing

def new : RasterDrawing where
  renderer := .new
  scenes := []
  stage := none
  hits := ∅
  contents _ := []
  encoded _ := []
  entered := .empty

variable (config : UInt64 → RasterCacheConfig)

/-- The scene is done with, whatever came of it. -/
def leaveScene (self : RasterDrawing) : RasterDrawing :=
  { self with
    scenes := self.scenes.tail
    stage := none
    hits := if self.scenes.tail.isEmpty then ∅ else self.hits
    encoded := self.contents
    entered := .empty }

/-- The textures and the tiles that preparing has entered. -/
def prepared (self : RasterDrawing) (renderer : RasterRenderer) (stage : DrawStage)
    (entered : List CachedRasterTextureKey) (byBatch : Bool) : RasterDrawing :=
  { self with
    renderer
    stage := some stage
    entered := entered.foldl (fun marks key => marks.insert key byBatch) self.entered }

def prepareUpdate (self : RasterDrawing) (scene : RasterScene) (update : RasterTileUpdate)
    (rest : List RasterTileUpdate) (evictions : List CachedRasterTextureKey) :
    Option RasterDrawing := do
  let (texture, renderer) ← self.renderer.prepareRasterTextureFields config update.textureKey
    update.textureSize update.gutter scene.isProtected evictions
  match texture with
  | none => return self.prepared renderer (scene.atUpdates rest) [] false
  | some texture =>
      let entered :=
        if self.renderer.created < renderer.created then [update.textureKey] else []
      return self.prepared renderer (.encodeUpdate update texture rest) entered false

def prepareBatch (self : RasterDrawing) (scene : RasterScene) (batch : RasterTileUpdateBatch)
    (rest : List RasterTileUpdateBatch) (evictions : List CachedRasterTextureKey) :
    Option RasterDrawing := do
  let (texture, renderer) ← self.renderer.prepareRasterBatchTexture config batch.toRasterTargets
    batch.size scene.isProtected evictions
  match texture with
  | some (.allocated texture) =>
      let entered := (batch.targets.filter (self.renderer.enters batch.toRasterTargets)).map
        batch.textureKey
      return self.prepared renderer (.encodeBatch batch texture rest) entered true
  | _ => return self.prepared renderer (RasterScene.atBatches rest) [] true

def prepare (self : RasterDrawing) (evictions : List CachedRasterTextureKey) :
    Option RasterDrawing := do
  let scene ← self.scenes.head?
  match self.stage with
  | some (.prepareUpdate update rest) => self.prepareUpdate config scene update rest evictions
  | some (.prepareBatch batch rest) => self.prepareBatch config scene batch rest evictions
  | _ => none

/-- A render pass into the texture, which it clears. -/
def encodeInto (self : RasterDrawing) (texture : Nat) (content : TextureContent)
    (stage : DrawStage) : RasterDrawing :=
  { self with encoded := Function.update self.encoded texture content, stage := some stage }

def encode (self : RasterDrawing) : Option RasterDrawing := do
  let scene ← self.scenes.head?
  match self.stage with
  | some (.encodeUpdate update texture rest) =>
      return self.encodeInto texture [(⟨0, 0⟩, update.textureKey)] (scene.atUpdates rest)
  | some (.encodeBatch batch texture rest) =>
      return self.encodeInto texture batch.content (RasterScene.atBatches rest)
  | _ => none

def isEncoding : DrawStage → Bool
  | .encodeUpdate _ _ _ => true
  | .encodeBatch _ _ _ => true
  | .encodeScene => true
  | _ => false

def fail (self : RasterDrawing) (giveUp : Bool) : Option RasterDrawing := do
  let scene ← self.scenes.head?
  let stage ← self.stage
  if isEncoding stage then
    if giveUp then return self.leaveScene
    else return { self with
      stage := some (scene.atUpdates scene.updates), encoded := self.contents }
  else none

/-- The caches of the scene are swept in some order. -/
def evictOffscreen (self : RasterDrawing)
    (evictions : List (UInt64 × List CachedRasterTextureKey)) : Option RasterDrawing := do
  let scene ← self.scenes.head?
  match self.stage with
  | some .evictOffscreen =>
      if (evictions.map Prod.fst).Nodup ∧
          (evictions.map Prod.fst).toFinset = scene.caches.toFinset then
        let renderer ← evictions.foldlM (fun (renderer : RasterRenderer) entry =>
          renderer.evictOffscreen config entry.1 scene.isProtected entry.2) self.renderer
        return { self with renderer, stage := some .encodeScene }
      else none
  | _ => none

def step (self : RasterDrawing) : DrawEvent → Option RasterDrawing
  | .lookup key =>
      if self.scenes = [] then
        let (lookup, renderer) := self.renderer.rasterTileLookup key
        some { self with
          renderer, hits := if lookup = .miss then self.hits else insert key self.hits }
      else none
  | .release cacheId =>
      if self.scenes = [] then
        some { self with renderer := self.renderer.releaseRasterCache cacheId }
      else none
  | .dropOwner cacheId =>
      if self.scenes = [] then
        some { self with renderer := self.renderer.dropOwner cacheId }
      else none
  | .draw scenes =>
      if self.scenes = [] then
        some { self with
          renderer := { self.renderer with frameIndex := self.renderer.frameIndex + 1 }
          scenes }
      else none
  | .skip =>
      if self.scenes ≠ [] ∧ self.stage.isNone then some self.leaveScene else none
  | .begin_ => do
      let scene ← self.scenes.head?
      if self.stage.isNone then
        return { self with
          stage := some (scene.atUpdates scene.updates)
          encoded := self.contents
          entered := .empty }
      else none
  | .prepare evictions => self.prepare config evictions
  | .encode => self.encode
  | .fail giveUp => self.fail giveUp
  | .evictOffscreen evictions => self.evictOffscreen config evictions
  | .submit =>
      match self.stage with
      | some .encodeScene =>
          if self.scenes = [] then none
          else some (leaveScene { self with contents := self.encoded })
      | _ => none

end RasterDrawing

end Gpui
