import Gpui.Geometry
import Gpui.Library.FiniteMap
import Gpui.Library.Transition

/-!
# The textures of the raster caches

The renderer keeps the tiles of every raster cache in textures, which several tiles may
share, and counts for every cache what its tiles take.  A tile is dropped when its cache is
released, when it is replaced, or when another one needs the room.

A cache is known by its number, which determines its configuration.  Which of several
candidates is dropped, when they were last used in the same frame, depends on the order of a
hash map; the candidates are given to the functions that drop them, which have no result
for any others.

The positions of the targets of a batch are given in pixels.
-/

namespace Gpui

open Library

/-- The limits are not zero, and ordered. -/
structure RasterCacheConfig where
  softLimitBytes : Nat
  hardLimitBytes : Nat
  positive : 0 < softLimitBytes
  ordered : softLimitBytes ≤ hardLimitBytes

structure CachedRasterTextureKey where
  cacheId : UInt64
  key : UInt64
  revision : UInt64
deriving DecidableEq, Repr

/-- A texture that was made, by its number. -/
structure CachedRasterAllocation where
  texture : Nat
  bytes : Nat
deriving DecidableEq, Repr

structure CachedRasterTexture where
  allocation : CachedRasterAllocation
  sourceOrigin : Point Int
  sourceSize : Size Int
  gutter : Nat
  lastUsedFrame : UInt64
deriving DecidableEq, Repr

structure RasterCacheStats where
  residentBytes : Nat
  residentTiles : Nat
  evictedTiles : Nat
  hits : Nat
  misses : Nat
deriving DecidableEq, Repr

structure RasterNamespace where
  /-- Some handle of the cache is left. -/
  owned : Bool
  stats : RasterCacheStats
deriving DecidableEq, Repr

structure RasterRenderer where
  textures : FiniteMap CachedRasterTextureKey CachedRasterTexture
  namespaces : PartialMap UInt64 fun _ => RasterNamespace
  frameIndex : UInt64
  /-- The textures that have been made. -/
  created : Nat

inductive RasterTileLookup where
  | hit (gutter : Nat)
  | miss
deriving DecidableEq, Repr

structure RasterBatchTarget where
  key : UInt64
  revision : UInt64
  /-- Where it is in the texture. -/
  source : Point Int
deriving DecidableEq, Repr

/-- What `prepare_raster_batch_texture` reads of a batch. -/
structure RasterTargets where
  cacheId : UInt64
  textureSize : Size Int
  gutter : Int
  targets : List RasterBatchTarget
deriving DecidableEq, Repr

inductive PreparedRasterBatchTexture where
  | allocated (texture : Nat)
  | alreadyReady
deriving DecidableEq, Repr

def RasterNamespace.new : RasterNamespace :=
  ⟨true, ⟨0, 0, 0, 0, 0⟩⟩

def RasterTargets.textureKey (self : RasterTargets) (target : RasterBatchTarget) :
    CachedRasterTextureKey :=
  ⟨self.cacheId, target.key, target.revision⟩

/-- `i32::saturating_add`. -/
def saturatingAdd (a b : Int) : Int :=
  max (-2 ^ 31) (min (a + b) (2 ^ 31 - 1))

/-- The target lies in a texture of the size. -/
def RasterTargets.inPlace (self : RasterTargets) (textureSize : Size Int)
    (target : RasterBatchTarget) : Bool :=
  0 ≤ target.source.x && 0 ≤ target.source.y &&
    saturatingAdd target.source.x self.textureSize.width ≤ textureSize.width &&
    saturatingAdd target.source.y self.textureSize.height ≤ textureSize.height

/-- The bytes of a texture of the size. -/
def textureBytes (size : Size Int) : Nat :=
  size.width.toNat * size.height.toNat * 4

namespace RasterRenderer

def new : RasterRenderer where
  textures := .empty
  namespaces := .empty
  frameIndex := 0
  created := 0

/-! ## Looking up and releasing -/

/-- The namespace of a cache whose handles are gone is left until the next lookup. -/
def pruned (self : RasterRenderer) (cacheId : UInt64) : Bool :=
  (self.namespaces cacheId).any fun namespace_ => !namespace_.owned

def pruneReleasedRasterCaches (self : RasterRenderer) : RasterRenderer :=
  { self with
    textures := self.textures.retain fun key => !self.pruned key.cacheId
    namespaces := fun cacheId => if self.pruned cacheId then none else self.namespaces cacheId }

def releaseRasterCache (self : RasterRenderer) (cacheId : UInt64) : RasterRenderer :=
  { self with
    textures := self.textures.retain fun key => key.cacheId ≠ cacheId
    namespaces := self.namespaces.remove cacheId }

/-- The last handle of the cache is dropped. -/
def dropOwner (self : RasterRenderer) (cacheId : UInt64) : RasterRenderer :=
  { self with
    namespaces := self.namespaces.modify cacheId fun namespace_ =>
      { namespace_ with owned := false } }

/-- `entry(cache_id).or_insert_with(..)`, and a change of the statistics. -/
def updateStats (self : RasterRenderer) (cacheId : UInt64)
    (update : RasterCacheStats → RasterCacheStats) : RasterRenderer :=
  let namespace_ := (self.namespaces cacheId).getD .new
  { self with
    namespaces :=
      self.namespaces.insert cacheId { namespace_ with stats := update namespace_.stats } }

/-- The tile has been used in this frame. -/
def touch (self : RasterRenderer) (key : CachedRasterTextureKey) (texture : CachedRasterTexture) :
    RasterRenderer :=
  { self with
    textures := self.textures.insert key { texture with lastUsedFrame := self.frameIndex } }

def rasterTileLookup (self : RasterRenderer) (key : CachedRasterTextureKey) :
    RasterTileLookup × RasterRenderer :=
  let self := self.pruneReleasedRasterCaches
  match self.textures.get key with
  | some tile =>
      (.hit tile.gutter, (self.touch key tile).updateStats key.cacheId fun stats =>
        { stats with hits := stats.hits + 1 })
  | none =>
      (.miss, self.updateStats key.cacheId fun stats => { stats with misses := stats.misses + 1 })

/-! ## Evicting -/

/-- The allocations that some tile refers to. -/
def allocations (self : RasterRenderer) : Finset CachedRasterAllocation :=
  self.textures.image (fun _ => true) CachedRasterTexture.allocation

def removeRasterTexture (self : RasterRenderer) (key : CachedRasterTextureKey) (evicted : Bool) :
    RasterRenderer :=
  match self.textures.get key with
  | none => self
  | some texture =>
      let self := { self with textures := self.textures.erase key }
      -- `Arc::strong_count`: no other tile has the allocation.
      let allocationReleased := texture.allocation ∉ self.allocations
      let discharge (stats : RasterCacheStats) : RasterCacheStats :=
        { stats with
          residentBytes :=
            if allocationReleased then stats.residentBytes - texture.allocation.bytes
            else stats.residentBytes
          residentTiles := stats.residentTiles - 1
          evictedTiles := if evicted then stats.evictedTiles + 1 else stats.evictedTiles }
      { self with
        namespaces := self.namespaces.modify key.cacheId fun namespace_ =>
          { namespace_ with stats := discharge namespace_.stats } }

/-- The tiles of the cache that may be evicted. -/
def candidates (self : RasterRenderer) (cacheId : UInt64)
    (isProtected : Finset CachedRasterTextureKey) : Finset CachedRasterTextureKey :=
  self.textures.keys.filter fun key => key.cacheId = cacheId ∧ key ∉ isProtected

/-- `min_by_key` may return the candidate. -/
def leastRecentlyUsed (self : RasterRenderer) (cacheId : UInt64)
    (isProtected : Finset CachedRasterTextureKey) (candidate : CachedRasterTextureKey) : Prop :=
  candidate ∈ self.candidates cacheId isProtected ∧
    ∀ other ∈ self.candidates cacheId isProtected,
      ∀ texture ∈ self.textures.get candidate, ∀ otherTexture ∈ self.textures.get other,
        texture.lastUsedFrame ≤ otherTexture.lastUsedFrame

instance (self : RasterRenderer) (cacheId : UInt64)
    (isProtected : Finset CachedRasterTextureKey) (candidate : CachedRasterTextureKey) :
    Decidable (self.leastRecentlyUsed cacheId isProtected candidate) :=
  inferInstanceAs (Decidable (_ ∧ _))

/-- Evict tiles while there is too much; whether that has ended because there is not. -/
def evict (cacheId : UInt64) (isProtected : Finset CachedRasterTextureKey)
    (exceeds : RasterRenderer → Bool) :
    List CachedRasterTextureKey → RasterRenderer → Option (Bool × RasterRenderer)
  | [], self =>
      if exceeds self = false then some (true, self)
      else if self.candidates cacheId isProtected = ∅ then some (false, self)
      else none
  | candidate :: rest, self =>
      if exceeds self = true ∧ self.leastRecentlyUsed cacheId isProtected candidate then
        evict cacheId isProtected exceeds rest (self.removeRasterTexture candidate true)
      else none

variable (config : UInt64 → RasterCacheConfig)

/-- The texture would not fit under the hard limit. -/
def exceedsHardLimit (cacheId : UInt64) (bytes : Nat) (self : RasterRenderer) : Bool :=
  (config cacheId).hardLimitBytes <
    ((self.namespaces cacheId).map fun namespace_ =>
      namespace_.stats.residentBytes + bytes).getD bytes

def exceedsSoftLimit (cacheId : UInt64) (self : RasterRenderer) : Bool :=
  (self.namespaces cacheId).any fun namespace_ =>
    (config cacheId).softLimitBytes < namespace_.stats.residentBytes

/-- The last part of `draw_primitives` before the scene itself, for one cache. -/
def evictOffscreen (self : RasterRenderer) (cacheId : UInt64)
    (isProtected : Finset CachedRasterTextureKey) (evictions : List CachedRasterTextureKey) :
    Option RasterRenderer :=
  (evict cacheId isProtected (exceedsSoftLimit config cacheId) evictions self).map Prod.snd

/-! ## Preparing textures -/

/-- A new texture is made for the tiles, which are at these places of it. -/
def insertTextures (self : RasterRenderer) (cacheId : UInt64) (bytes : Nat)
    (sourceSize : Size Int) (gutter : Int)
    (entries : List (CachedRasterTextureKey × Point Int)) : RasterRenderer :=
  let texture (sourceOrigin : Point Int) : CachedRasterTexture :=
    { allocation := ⟨self.created, bytes⟩
      sourceOrigin
      sourceSize
      gutter := gutter.toNat
      lastUsedFrame := self.frameIndex }
  let self := { self with
    textures := self.textures.insertAll
      (entries.map fun (entry : CachedRasterTextureKey × Point Int) => (entry.1, texture entry.2))
    created := self.created + 1 }
  self.updateStats cacheId fun stats =>
    { stats with
      residentBytes := stats.residentBytes + bytes
      residentTiles := stats.residentTiles + entries.length }

/-- The size is empty, or larger than the cache. -/
def refuses (cacheId : UInt64) (textureSize : Size Int) : Bool :=
  textureSize.width.toNat = 0 || textureSize.height.toNat = 0 ||
    (config cacheId).hardLimitBytes < textureBytes textureSize

/-- The tile is resident with the size. -/
def hasSize (self : RasterRenderer) (key : CachedRasterTextureKey) (textureSize : Size Int) :
    Option CachedRasterTexture :=
  (self.textures.get key).filter fun existing =>
    existing.sourceSize.width.toNat = textureSize.width.toNat &&
      existing.sourceSize.height.toNat = textureSize.height.toNat

def prepareRasterTextureFields (self : RasterRenderer) (textureKey : CachedRasterTextureKey)
    (textureSize : Size Int) (gutter : Int) (isProtected : Finset CachedRasterTextureKey)
    (evictions : List CachedRasterTextureKey) : Option (Option Nat × RasterRenderer) :=
  if refuses config textureKey.cacheId textureSize then
    if evictions = [] then some (none, self) else none
  else
    match self.hasSize textureKey textureSize with
    | some existing =>
        if evictions = [] then
          some (some existing.allocation.texture, self.touch textureKey existing)
        else none
    | none => do
        let bytes := textureBytes textureSize
        let self := self.removeRasterTexture textureKey false
        let (fits, self) ← evict textureKey.cacheId isProtected
          (exceedsHardLimit config textureKey.cacheId bytes) evictions self
        if fits then
          let after := self.insertTextures textureKey.cacheId bytes textureSize gutter
            [(textureKey, ⟨0, 0⟩)]
          return (some self.created, after)
        else return (none, self)

/-- The tile is resident as a target of the batch has to be. -/
def isReady (self : RasterRenderer) (batch : RasterTargets) (target : RasterBatchTarget) :
    Option CachedRasterTexture :=
  (self.textures.get (batch.textureKey target)).filter fun existing =>
    existing.sourceSize = batch.textureSize && existing.gutter = batch.gutter.toNat

/-- The targets that need a texture, unless one is out of place. -/
def prepareTargets (batch : RasterTargets) (textureSize : Size Int) :
    List RasterBatchTarget → RasterRenderer →
      Option (List (CachedRasterTextureKey × Point Int)) × RasterRenderer
  | [], self => (some [], self)
  | target :: targets, self =>
      if batch.inPlace textureSize target then
        match self.isReady batch target with
        | some existing =>
            prepareTargets batch textureSize targets
              (self.touch (batch.textureKey target) existing)
        | none =>
            let (entries, self) := prepareTargets batch textureSize targets
              (self.removeRasterTexture (batch.textureKey target) false)
            (entries.map fun entries => (batch.textureKey target, target.source) :: entries, self)
      else (none, self)

def prepareRasterBatchTexture (self : RasterRenderer) (batch : RasterTargets)
    (textureSize : Size Int) (isProtected : Finset CachedRasterTextureKey)
    (evictions : List CachedRasterTextureKey) :
    Option (Option PreparedRasterBatchTexture × RasterRenderer) :=
  if refuses config batch.cacheId textureSize then
    if evictions = [] then some (none, self) else none
  else
    match prepareTargets batch textureSize batch.targets self with
    | (none, self) => if evictions = [] then some (none, self) else none
    | (some [], self) => if evictions = [] then some (some .alreadyReady, self) else none
    | (some entries, self) => do
        let bytes := textureBytes textureSize
        let (fits, self) ← evict batch.cacheId isProtected
          (exceedsHardLimit config batch.cacheId bytes) evictions self
        if fits then
          let after := self.insertTextures batch.cacheId bytes batch.textureSize batch.gutter entries
          return (some (.allocated self.created), after)
        else return (none, self)

end RasterRenderer

end Gpui
