import Gpui.Platform.MetalAtlas

/-!
# The sprite atlas of Blade

The slots are those of the Metal atlas, but a key is forgotten whenever it is removed, and
what a new texture needs is queued: it is initialized, and the tiles are copied, at the next
frame.  The queues name a texture by its slot.

The bytes of an upload are left out.
-/

namespace Gpui

open Gpui.Library

structure BladeAtlasTexture (A : Type) where
  id : AtlasTextureId
  allocator : A
  /-- The texture itself; no two have the same. -/
  raw : Nat
  liveAtlasKeys : Nat

structure PendingInitialization where
  id : AtlasTextureId
  /-- The texture that was pushed, which no code reads. -/
  raw : Nat
deriving DecidableEq, Repr

structure PendingUpload where
  id : AtlasTextureId
  bounds : Bounds Int
  /-- The texture that the tile was allocated in, which no code reads. -/
  raw : Nat
deriving DecidableEq, Repr

structure BladeAtlasStorage (A : Type) where
  monochromeTextures : AtlasTextureList (BladeAtlasTexture A)
  polychromeTextures : AtlasTextureList (BladeAtlasTexture A)

structure BladeAtlasState (Key A : Type) where
  /-- The textures that have been created. -/
  created : Nat
  storage : BladeAtlasStorage A
  tilesByKey : List (Key × AtlasTile)
  initializations : List PendingInitialization
  uploads : List PendingUpload

namespace BladeAtlasTexture

variable {A : Type}

def allocate (allocator : AtlasAllocator A) (self : BladeAtlasTexture A) (size : Size Int) :
    Option (AtlasTile × BladeAtlasTexture A) := do
  let (allocation, after) ← allocator.allocate self.allocator size
  let tile : AtlasTile :=
    { textureId := self.id
      tileId := allocation.id
      padding := 0
      bounds := ⟨allocation.rectangle.origin, size⟩ }
  return (tile, { self with allocator := after, liveAtlasKeys := self.liveAtlasKeys + 1 })

def decrementRefCount (self : BladeAtlasTexture A) : Option (BladeAtlasTexture A) :=
  if self.liveAtlasKeys = 0 then none
  else some { self with liveAtlasKeys := self.liveAtlasKeys - 1 }

def isUnreferenced (self : BladeAtlasTexture A) : Bool :=
  self.liveAtlasKeys = 0

/-- Allocate in the last texture that has room: its slot, the tile and the texture after. -/
def allocateLast (allocator : AtlasAllocator A) (size : Size Int) :
    List (Option (BladeAtlasTexture A)) → Option (Nat × AtlasTile × BladeAtlasTexture A)
  | [] => none
  | slot :: slots =>
      match allocateLast allocator size slots with
      | some (ix, tile, texture) => some (ix + 1, tile, texture)
      | none => do
          let texture ← slot
          let (tile, texture) ← texture.allocate allocator size
          return (0, tile, texture)

end BladeAtlasTexture

namespace BladeAtlasState

variable {Key A : Type}

def new : BladeAtlasState Key A :=
  ⟨0, ⟨.empty, .empty⟩, [], [], []⟩

def textureList (self : BladeAtlasState Key A) :
    AtlasTextureKind → AtlasTextureList (BladeAtlasTexture A)
  | .monochrome => self.storage.monochromeTextures
  | .polychrome => self.storage.polychromeTextures

def setTextureList (self : BladeAtlasState Key A) (kind : AtlasTextureKind)
    (list : AtlasTextureList (BladeAtlasTexture A)) : BladeAtlasState Key A :=
  match kind with
  | .monochrome => { self with storage := { self.storage with monochromeTextures := list } }
  | .polychrome => { self with storage := { self.storage with polychromeTextures := list } }

def texture (self : BladeAtlasState Key A) (id : AtlasTextureId) : Option (BladeAtlasTexture A) :=
  ((self.textureList id.kind).textures[id.index.toNat]?).join

/-- The slot is written. -/
def setSlot (self : BladeAtlasState Key A) (kind : AtlasTextureKind) (ix : Nat)
    (texture : BladeAtlasTexture A) : BladeAtlasState Key A :=
  let list := self.textureList kind
  self.setTextureList kind { list with textures := list.textures.set ix (some texture) }

/-- `push_texture`: put a texture into a free slot or a new one.  The first component is the
slot, the second the texture. -/
def pushTexture (allocator : AtlasAllocator A) (self : BladeAtlasState Key A)
    (minSize : Size Int) (kind : AtlasTextureKind) :
    Option (Nat × BladeAtlasTexture A × BladeAtlasState Key A) :=
  let size : Size Int := ⟨max minSize.width 1024, max minSize.height 1024⟩
  let list := self.textureList kind
  let index := list.freeList.getLast?
  let atlasTexture : BladeAtlasTexture A :=
    { id := ⟨UInt32.ofNat (index.getD list.textures.length), kind⟩
      allocator := allocator.new size
      raw := self.created
      liveAtlasKeys := 0 }
  let pending : PendingInitialization := ⟨atlasTexture.id, atlasTexture.raw⟩
  let self := { self with
    created := self.created + 1
    initializations := self.initializations ++ [pending] }
  match index with
  | some ix =>
      if ix < list.textures.length then
        some (ix, atlasTexture, self.setTextureList kind
          ⟨list.textures.set ix (some atlasTexture), list.freeList.dropLast⟩)
      else none
  | none =>
      some (list.textures.length, atlasTexture, self.setTextureList kind
        { list with textures := list.textures ++ [some atlasTexture] })

/-- The tile, and the texture it is in.  A size that does not fit into a new texture
panics. -/
def allocate (allocator : AtlasAllocator A) (self : BladeAtlasState Key A) (size : Size Int)
    (textureKind : AtlasTextureKind) : Option (AtlasTile × Nat × BladeAtlasState Key A) :=
  match BladeAtlasTexture.allocateLast allocator size (self.textureList textureKind).textures with
  | some (ix, tile, texture) => some (tile, texture.raw, self.setSlot textureKind ix texture)
  | none => do
      let (ix, texture, self) ← self.pushTexture allocator size textureKind
      let (tile, texture) ← texture.allocate allocator size
      return (tile, texture.raw, self.setSlot textureKind ix texture)

def uploadTexture (self : BladeAtlasState Key A) (id : AtlasTextureId) (bounds : Bounds Int)
    (raw : Nat) : BladeAtlasState Key A :=
  let upload : PendingUpload := ⟨id, bounds, raw⟩
  { self with uploads := self.uploads ++ [upload] }

/-- The textures that are initialized. -/
def flushInitializations (self : BladeAtlasState Key A) :
    Option (List Nat × BladeAtlasState Key A) := do
  let textures ← self.initializations.mapM fun pending => self.texture pending.id
  return (textures.map BladeAtlasTexture.raw, { self with initializations := [] })

/-- The textures that are initialized, and what is copied to which texture. -/
def flush (self : BladeAtlasState Key A) :
    Option (List Nat × List (Nat × Bounds Int) × BladeAtlasState Key A) := do
  let (initialized, self) ← self.flushInitializations
  let copied ← self.uploads.mapM fun upload => do
    let texture ← self.texture upload.id
    return (texture.raw, upload.bounds)
  return (initialized, copied, { self with uploads := [] })

variable [DecidableEq Key]

def tile (self : BladeAtlasState Key A) (key : Key) : Option AtlasTile :=
  (self.tilesByKey.find? fun entry => entry.1 = key).map Prod.snd

/-- `get_or_insert_with`, where `build` fails or gives a size. -/
def getOrInsertWith (textureKind : Key → AtlasTextureKind) (allocator : AtlasAllocator A)
    (self : BladeAtlasState Key A) (key : Key) (build : Option (Size Int)) :
    Option (BladeAtlasState Key A) :=
  match self.tile key with
  | some _ => some self
  | none =>
      match build with
      | none => some self
      | some size => do
          let (tile, raw, self) ← self.allocate allocator size (textureKind key)
          let self := self.uploadTexture tile.textureId tile.bounds raw
          return { self with tilesByKey := (key, tile) :: self.tilesByKey }

def remove (self : BladeAtlasState Key A) (key : Key) : Option (BladeAtlasState Key A) :=
  match self.tile key with
  | none => some self
  | some tile =>
      let self := { self with tilesByKey := self.tilesByKey.filter fun entry => entry.1 ≠ key }
      let id := tile.textureId
      match self.texture id with
      | none => some self
      | some texture => do
          let texture ← texture.decrementRefCount
          if texture.isUnreferenced then
            let list := self.textureList id.kind
            return self.setTextureList id.kind
              ⟨list.textures.set id.index.toNat none, list.freeList ++ [texture.id.index.toNat]⟩
          else return self.setSlot id.kind id.index.toNat texture

end BladeAtlasState

inductive BladeAtlasCall (Key : Type) where
  | getOrInsertWith (key : Key) (build : Option (Size Int))
  | remove (key : Key)
  | beforeFrame
deriving DecidableEq

def BladeAtlasCall.step {Key A : Type} [DecidableEq Key] (textureKind : Key → AtlasTextureKind)
    (allocator : AtlasAllocator A) (state : BladeAtlasState Key A) :
    BladeAtlasCall Key → Option (BladeAtlasState Key A)
  | getOrInsertWith key build => state.getOrInsertWith textureKind allocator key build
  | remove key => state.remove key
  | beforeFrame => do
      let (_, _, state) ← state.flush
      return state

end Gpui
