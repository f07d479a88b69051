import Gpui.Scene.Core
import Gpui.Library.Iteration
import Gpui.Library.KWayMerge

/-!
# Batches

`BatchIterator` merges the eight sorted vectors of a finished scene.  Each step
takes the kind with the least head and emits a slice of it, up to the head of
the runner-up; a sprite batch also ends at the next texture.  An exhausted kind
competes with the sentinel order `u32::MAX`.
-/

namespace Gpui

open Gpui.Library

variable {K : Type}

namespace PrimitiveKind

/-- The kinds in the order `next` lists them. -/
def all : List PrimitiveKind :=
  [shadow, quad, path, underline, monochromeSprite, polychromeSprite, surface, rasterTile]

theorem mem_all (kind : PrimitiveKind) : kind ∈ all := by
  cases kind <;> decide

/-- Sprite batches are cut at texture boundaries. -/
def isSprite : PrimitiveKind → Bool
  | monochromeSprite => true
  | polychromeSprite => true
  | _ => false

end PrimitiveKind

/-- A slice of the vector of one kind; sprite batches carry their texture. -/
structure PrimitiveBatch (K : Type) where
  kind : PrimitiveKind
  textureId : Option AtlasTextureId
  primitives : List (Primitive K)
deriving DecidableEq, Repr

/-- The merge key of a primitive, compared lexicographically. -/
abbrev BatchKey := DrawOrder ×ₗ PrimitiveKind

def Primitive.batchKey (primitive : Primitive K) : BatchKey :=
  toLex (primitive.order, primitive.kind)

def Primitive.textureId (primitive : Primitive K) : Option AtlasTextureId :=
  primitive.tile.map AtlasTile.textureId

/-- The three parallel families of fields of the iterator, indexed by kind: the
vector, the start of the next slice and the peekable rest of the vector. -/
structure BatchIterator (K : Type) where
  vectors : PrimitiveKind → List (Primitive K)
  start : PrimitiveKind → Nat
  iter : PrimitiveKind → List (Primitive K)

namespace BatchIterator

/-- The pair a kind competes with: the order of its head, if it has one. -/
def orderAndKind (self : BatchIterator K) (kind : PrimitiveKind) :
    Option DrawOrder × PrimitiveKind :=
  ((self.iter kind).head?.map Primitive.order, kind)

/-- The sort key of such a pair, with the sentinel for an exhausted kind. -/
def competitionKey (pair : Option DrawOrder × PrimitiveKind) : BatchKey :=
  toLex (pair.1.getD DrawOrder.MAX, pair.2)

/-- The `while … next_if` loop: advance over the accepted front of the
iterator, counting the end of the slice. -/
def advance (accept : Primitive K → Bool) :
    Nat → List (Primitive K) → Nat × List (Primitive K)
  | stop, [] => (stop, [])
  | stop, primitive :: rest =>
      if accept primitive then advance accept (stop + 1) rest else (stop, primitive :: rest)

/-- One arm of the `match batch_kind`: emit the head of `kind` and everything
accepted after it. -/
def takeBatch (self : BatchIterator K) (kind : PrimitiveKind) (textureId : Option AtlasTextureId)
    (accept : Primitive K → Bool) : PrimitiveBatch K × BatchIterator K :=
  let start := self.start kind
  let (stop, rest) := advance accept (start + 1) (self.iter kind).tail
  ({ kind, textureId, primitives := ((self.vectors kind).drop start).take (stop - start) },
    { self with
      start := Function.update self.start kind stop
      iter := Function.update self.iter kind rest })

def next (self : BatchIterator K) : Option (PrimitiveBatch K × BatchIterator K) :=
  let ordersAndKinds := sortByKey competitionKey (PrimitiveKind.all.map self.orderAndKind)
  match ordersAndKinds with
  | first :: second :: _ =>
      if first.1.isSome then
        let batchKind := first.2
        let maxOrderAndKind := competitionKey second
        if batchKind.isSprite then
          let textureId := (self.iter batchKind).head?.bind Primitive.textureId
          some (self.takeBatch batchKind textureId fun sprite =>
            toLex (sprite.order, batchKind) < maxOrderAndKind && sprite.textureId = textureId)
        else
          some (self.takeBatch batchKind none fun primitive =>
            toLex (primitive.order, batchKind) < maxOrderAndKind)
      else none
  | _ => none

end BatchIterator

namespace Scene

def batchIterator (self : Scene K) : BatchIterator K where
  vectors := self.vector
  start := fun _ => 0
  iter := self.vector

/-- The number of primitives in all vectors. -/
def primitiveCount (self : Scene K) : Nat :=
  (PrimitiveKind.all.map fun kind => (self.vector kind).length).sum

/-- All batches; every batch holds a primitive, so their number is bounded by
the number of primitives. -/
def batches (self : Scene K) : List (PrimitiveBatch K) :=
  collect BatchIterator.next (self.primitiveCount + 1) self.batchIterator

end Scene

end Gpui
