import Gpui.Library.Transition
import Gpui.Scene.Primitive

/-!
# The sprite atlas

Glyphs and images are drawn from textures, which are kept in slots.  A texture counts the
keys whose tiles it holds; when the count falls to zero the texture is dropped, and its
slot is free for the next one.

The allocator that places the tiles in a texture is a parameter.  A panic (a slot that is
not there or empty, a count below zero) yields `none`.
-/

namespace Gpui

open Gpui.Library

/-- What `etagere` hands out. -/
structure Allocation where
  id : UInt32
  rectangle : Bounds Int
deriving DecidableEq, Repr

/-- The interface of `etagere::BucketedAtlasAllocator`. -/
structure AtlasAllocator (A : Type) where
  new : Size Int → A
  allocate : A → Size Int → Option (Allocation × A)

structure MetalAtlasTexture (A : Type) where
  id : AtlasTextureId
  allocator : A
  liveAtlasKeys : Nat

structure AtlasTextureList (T : Type) where
  textures : List (Option T)
  freeList : List Nat

structure MetalAtlasState (Key A : Type) where
  monochromeTextures : AtlasTextureList (MetalAtlasTexture A)
  polychromeTextures : AtlasTextureList (MetalAtlasTexture A)
  tilesByKey : List (Key × AtlasTile)

namespace MetalAtlasTexture

variable {A : Type}

def allocate (allocator : AtlasAllocator A) (self : MetalAtlasTexture A) (size : Size Int) :
    Option (AtlasTile × MetalAtlasTexture A) := do
  let (allocation, after) ← allocator.allocate self.allocator size
  let tile : AtlasTile :=
    { textureId := self.id
      tileId := allocation.id
      padding := 0
      bounds := ⟨allocation.rectangle.origin, size⟩ }
  return (tile, { self with allocator := after, liveAtlasKeys := self.liveAtlasKeys + 1 })

def decrementRefCount (self : MetalAtlasTexture A) : Option (MetalAtlasTexture A) :=
  if self.liveAtlasKeys = 0 then none
  else some { self with liveAtlasKeys := self.liveAtlasKeys - 1 }

def isUnreferenced (self : MetalAtlasTexture A) : Bool :=
  self.liveAtlasKeys = 0

end MetalAtlasTexture

namespace AtlasTextureList

variable {A : Type}

def empty {T : Type} : AtlasTextureList T :=
  ⟨[], []⟩

/-- Allocate in the last texture that has room. -/
def allocate (allocator : AtlasAllocator A) (size : Size Int) :
    List (Option (MetalAtlasTexture A)) →
      Option (AtlasTile × List (Option (MetalAtlasTexture A)))
  | [] => none
  | slot :: slots =>
      match allocate allocator size slots with
      | some (tile, slots) => some (tile, slot :: slots)
      | none => do
          let texture ← slot
          let (tile, texture) ← texture.allocate allocator size
          return (tile, some texture :: slots)

/-- `push_texture`: put a texture into a free slot or a new one.  The first component is the
slot. -/
def pushTexture (allocator : AtlasAllocator A) (self : AtlasTextureList (MetalAtlasTexture A))
    (minSize : Size Int) (kind : AtlasTextureKind) :
    Option (Nat × AtlasTextureList (MetalAtlasTexture A)) :=
  let size : Size Int :=
    ⟨max (min minSize.width 16384) 1024, max (min minSize.height 16384) 1024⟩
  let texture (index : Nat) : MetalAtlasTexture A :=
    { id := ⟨UInt32.ofNat index, kind⟩
      allocator := allocator.new size
      liveAtlasKeys := 0 }
  match self.freeList.getLast? with
  | some ix =>
      if ix < self.textures.length then
        some (ix, ⟨self.textures.set ix (some (texture ix)), self.freeList.dropLast⟩)
      else none
  | none =>
      let ix := self.textures.length
      some (ix, { self with textures := self.textures ++ [some (texture ix)] })

end AtlasTextureList

namespace MetalAtlasState

variable {Key A : Type}

def new : MetalAtlasState Key A :=
  ⟨.empty, .empty, []⟩

def textureList (self : MetalAtlasState Key A) :
    AtlasTextureKind → AtlasTextureList (MetalAtlasTexture A)
  | .monochrome => self.monochromeTextures
  | .polychrome => self.polychromeTextures

def setTextureList (self : MetalAtlasState Key A) (kind : AtlasTextureKind)
    (list : AtlasTextureList (MetalAtlasTexture A)) : MetalAtlasState Key A :=
  match kind with
  | .monochrome => { self with monochromeTextures := list }
  | .polychrome => { self with polychromeTextures := list }

def texture (self : MetalAtlasState Key A) (id : AtlasTextureId) : Option (MetalAtlasTexture A) :=
  ((self.textureList id.kind).textures[id.index.toNat]?).join

/-- `allocate`; without a tile if the size does not fit into a new texture either. -/
def allocate (allocator : AtlasAllocator A) (self : MetalAtlasState Key A) (size : Size Int)
    (textureKind : AtlasTextureKind) : Option (Option AtlasTile × MetalAtlasState Key A) :=
  let list := self.textureList textureKind
  match AtlasTextureList.allocate allocator size list.textures with
  | some (tile, textures) =>
      some (some tile, self.setTextureList textureKind { list with textures })
  | none => do
      let (ix, list) ← list.pushTexture allocator size textureKind
      let texture ← (list.textures[ix]?).join
      match texture.allocate allocator size with
      | some (tile, texture) =>
          let textures := list.textures.set ix (some texture)
          return (some tile, self.setTextureList textureKind { list with textures })
      | none => return (none, self.setTextureList textureKind list)

variable [DecidableEq Key]

def tile (self : MetalAtlasState Key A) (key : Key) : Option AtlasTile :=
  (self.tilesByKey.find? fun entry => entry.1 = key).map Prod.snd

/-- `get_or_insert_with`, where `build` fails or gives a size. -/
def getOrInsertWith (textureKind : Key → AtlasTextureKind) (allocator : AtlasAllocator A)
    (self : MetalAtlasState Key A) (key : Key) (build : Option (Size Int)) :
    Option (MetalAtlasState Key A) :=
  match self.tile key with
  | some _ => some self
  | none =>
      match build with
      | none => some self
      | some size => do
          let (tile, self) ← self.allocate allocator size (textureKind key)
          match tile with
          | none => return self
          | some tile =>
              -- The texture the tile is uploaded to.
              let _ ← self.texture tile.textureId
              return { self with tilesByKey := (key, tile) :: self.tilesByKey }

/-- The first slot that holds the texture. -/
def findSlot (id : AtlasTextureId) (slots : List (Option (MetalAtlasTexture A))) : Option Nat :=
  slots.findIdx? fun slot => slot.any fun texture => texture.id = id

def remove (self : MetalAtlasState Key A) (key : Key) : Option (MetalAtlasState Key A) :=
  match self.tile key with
  | none => some self
  | some tile =>
      let id := tile.textureId
      let list := self.textureList id.kind
      match findSlot id list.textures with
      | none => some self
      | some ix => do
          let texture ← (list.textures[ix]?).join
          let texture ← texture.decrementRefCount
          if texture.isUnreferenced then
            let self := self.setTextureList id.kind
              ⟨list.textures.set ix none, list.freeList ++ [id.index.toNat]⟩
            return { self with
              tilesByKey := self.tilesByKey.filter fun entry => entry.1 ≠ key }
          else
            return self.setTextureList id.kind
              { list with textures := list.textures.set ix (some texture) }

end MetalAtlasState

inductive AtlasCall (Key : Type) where
  | getOrInsertWith (key : Key) (build : Option (Size Int))
  | remove (key : Key)
deriving DecidableEq

def AtlasCall.step {Key A : Type} [DecidableEq Key] (textureKind : Key → AtlasTextureKind)
    (allocator : AtlasAllocator A) (state : MetalAtlasState Key A) :
    AtlasCall Key → Option (MetalAtlasState Key A)
  | getOrInsertWith key build => state.getOrInsertWith textureKind allocator key build
  | remove key => state.remove key

end Gpui
