import Gpui.Scene.Batches
import Gpui.Scene.VectorReplay

/-!
# Drawing a moved scene

The batches of a scene come from draw orders, kinds and textures only, so a moved scene is
drawn in the same order.
-/

namespace Gpui

open Gpui.Library

variable {K : Type}

namespace Primitive

/-- What the vectors of a finished scene are sorted by. -/
def sortKey (primitive : Primitive K) : DrawOrder ×ₗ UInt32 :=
  toLex (primitive.order, primitive.tile.elim 0 AtlasTile.tileId)

theorem toLex_le_toLex_zero (first second : DrawOrder) :
    toLex (first, (0 : UInt32)) ≤ toLex (second, (0 : UInt32)) ↔ first ≤ second := by
  rw [Prod.Lex.le_iff]
  constructor
  · rintro (less | ⟨same, -⟩)
    · exact less.le
    · exact le_of_eq same
  · intro le
    rcases le.lt_or_eq with less | same
    · exact .inl less
    · exact .inr ⟨same, le_rfl⟩

end Primitive

namespace Scene

theorem finish_vector_eq (self : Scene K) (kind : PrimitiveKind) :
    self.finish.vector kind = sortByKey Primitive.sortKey (self.vector kind) := by
  cases kind with
  | monochromeSprite => exact List.map_insertionSort _ _ _ _ fun _ _ _ _ => Iff.rfl
  | polychromeSprite => exact List.map_insertionSort _ _ _ _ fun _ _ _ _ => Iff.rfl
  | shadow =>
      exact List.map_insertionSort _ _ _ _ fun _ _ _ _ =>
        (Primitive.toLex_le_toLex_zero _ _).symm
  | quad =>
      exact List.map_insertionSort _ _ _ _ fun _ _ _ _ =>
        (Primitive.toLex_le_toLex_zero _ _).symm
  | path =>
      exact List.map_insertionSort _ _ _ _ fun _ _ _ _ =>
        (Primitive.toLex_le_toLex_zero _ _).symm
  | underline =>
      exact List.map_insertionSort _ _ _ _ fun _ _ _ _ =>
        (Primitive.toLex_le_toLex_zero _ _).symm
  | surface =>
      exact List.map_insertionSort _ _ _ _ fun _ _ _ _ =>
        (Primitive.toLex_le_toLex_zero _ _).symm
  | rasterTile =>
      exact List.map_insertionSort _ _ _ _ fun _ _ _ _ =>
        (Primitive.toLex_le_toLex_zero _ _).symm

end Scene

/-! ## Images of batches -/

/-- The map leaves alone what the order of drawing depends on. -/
structure KeepsOrder (map : Primitive K → Primitive K) : Prop where
  order : ∀ primitive, (map primitive).order = primitive.order
  tile : ∀ primitive, (map primitive).tile = primitive.tile

def PrimitiveBatch.image (map : Primitive K → Primitive K) (self : PrimitiveBatch K) :
    PrimitiveBatch K :=
  { self with primitives := self.primitives.map map }

namespace BatchIterator

def image (map : Primitive K → Primitive K) (self : BatchIterator K) : BatchIterator K where
  vectors kind := (self.vectors kind).map map
  start := self.start
  iter kind := (self.iter kind).map map

variable {map : Primitive K → Primitive K}

theorem advance_map {accept accept' : Primitive K → Bool}
    (same : ∀ primitive, accept' (map primitive) = accept primitive) (stop : Nat)
    (items : List (Primitive K)) :
    advance accept' stop (items.map map) =
      ((advance accept stop items).1, (advance accept stop items).2.map map) := by
  induction items generalizing stop with
  | nil => rfl
  | cons primitive rest ih =>
      rw [List.map_cons, advance, advance, same]
      by_cases accepted : accept primitive = true
      · rw [if_pos accepted, if_pos accepted]
        exact ih (stop + 1)
      · rw [if_neg accepted, if_neg accepted, List.map_cons]

theorem takeBatch_image (self : BatchIterator K) (kind : PrimitiveKind)
    (textureId : Option AtlasTextureId) {accept accept' : Primitive K → Bool}
    (same : ∀ primitive, accept' (map primitive) = accept primitive) :
    (self.image map).takeBatch kind textureId accept' =
      ((self.takeBatch kind textureId accept).1.image map,
        (self.takeBatch kind textureId accept).2.image map) := by
  have advances := advance_map same (self.start kind + 1) (self.iter kind).tail
  rw [List.map_tail] at advances
  simp only [takeBatch, image, advances, PrimitiveBatch.image, List.map_take, List.map_drop]
  congr 2
  funext other
  by_cases isKind : other = kind
  · subst isKind
    rw [Function.update_self, Function.update_self]
  · rw [Function.update_of_ne isKind, Function.update_of_ne isKind]

variable (keeps : KeepsOrder map)

include keeps

theorem orderAndKind_image (self : BatchIterator K) (kind : PrimitiveKind) :
    (self.image map).orderAndKind kind = self.orderAndKind kind := by
  have orders : Primitive.order ∘ map = Primitive.order := funext keeps.order
  rw [orderAndKind, orderAndKind, image, List.head?_map, Option.map_map, orders]

theorem next_image (self : BatchIterator K) :
    (self.image map).next = self.next.map (Prod.map (PrimitiveBatch.image map) (image map)) := by
  have textures (primitive : Primitive K) : (map primitive).textureId = primitive.textureId := by
    rw [Primitive.textureId, keeps.tile, Primitive.textureId]
  have firsts (kind : PrimitiveKind) :
      ((self.image map).iter kind).head?.bind Primitive.textureId =
        (self.iter kind).head?.bind Primitive.textureId := by
    rw [image, List.head?_map, Option.bind_map]
    congr 1
    funext primitive
    exact textures primitive
  have competes : (self.image map).orderAndKind = self.orderAndKind :=
    funext (orderAndKind_image keeps self)
  rw [next, next, competes]
  simp only
  split
  · next first second _ _ =>
      by_cases present : first.1.isSome = true
      · rw [if_pos present, if_pos present]
        by_cases sprite : first.2.isSprite = true
        · rw [if_pos sprite, if_pos sprite, firsts, Option.map_some]
          apply congrArg some
          apply takeBatch_image
          intro primitive
          rw [keeps.order, textures]
        · rw [if_neg sprite, if_neg sprite, Option.map_some]
          apply congrArg some
          apply takeBatch_image
          intro primitive
          rw [keeps.order]
      · rw [if_neg present, if_neg present]
        rfl
  · rfl

theorem collect_image (fuel : Nat) (self : BatchIterator K) :
    collect next fuel (self.image map) =
      (collect next fuel self).map (PrimitiveBatch.image map) := by
  induction fuel generalizing self with
  | zero => rfl
  | succ fuel ih =>
      rw [collect, collect, next_image keeps]
      cases self.next with
      | none => rfl
      | some yielded => exact congrArg _ (ih yielded.2)

end BatchIterator

namespace Scene

variable {map : Primitive K → Primitive K} {scene moved : Scene K}

/-- Scenes whose vectors correspond are drawn in the same order. -/
theorem batches_image (keeps : KeepsOrder map)
    (vectors : ∀ kind, moved.vector kind = (scene.vector kind).map map) :
    moved.batches = scene.batches.map (PrimitiveBatch.image map) := by
  have iterator : moved.batchIterator = scene.batchIterator.image map := by
    rw [batchIterator, batchIterator, BatchIterator.image, funext vectors]
  have count : moved.primitiveCount = scene.primitiveCount := by
    rw [primitiveCount, primitiveCount]
    congr 2
    funext kind
    rw [vectors, List.length_map]
  rw [batches, batches, iterator, count, BatchIterator.collect_image keeps]

theorem finish_vector_image (keeps : KeepsOrder map)
    (vectors : ∀ kind, moved.vector kind = (scene.vector kind).map map) (kind : PrimitiveKind) :
    moved.finish.vector kind = (scene.finish.vector kind).map map := by
  have keys (primitive : Primitive K) :
      (map primitive).sortKey = primitive.sortKey := by
    rw [Primitive.sortKey, Primitive.sortKey, keeps.order, keeps.tile]
  rw [finish_vector_eq, finish_vector_eq, vectors]
  symm
  apply List.map_insertionSort
  intro first _ second _
  rw [keys, keys]

variable [Field K] [LinearOrder K]

theorem keepsOrder_transformed (scale : K) (translation : Point K) :
    KeepsOrder fun primitive : Primitive K => primitive.transformed scale translation where
  order primitive := by cases primitive <;> rfl
  tile primitive := by cases primitive <;> rfl

/-- A moved scene is drawn as the scene is, moved. -/
theorem Moved.batches {scale : K} {translation : Point K}
    (moves : Moved scale translation scene moved) :
    moved.finish.batches =
      scene.finish.batches.map (PrimitiveBatch.image fun primitive =>
        primitive.transformed scale translation) :=
  batches_image (keepsOrder_transformed scale translation)
    (finish_vector_image (keepsOrder_transformed scale translation) moves.vector)

end Scene

end Gpui
