import Gpui.BoundsTree.Core

/-!
# Scene primitives

The primitives a scene stores, with the fields the scene's own code reads or
rewrites, and the colours of sprites, which a scene replays from a cache.  Fields that
no scene operation looks at (other colours, padding, image buffers) are not represented.

Lengths, factors and matrix entries range over one ordered field, so a scale
factor multiplies a length without a conversion.
-/

namespace Gpui

structure ContentMask (K : Type) where
  bounds : Bounds K
deriving DecidableEq, Repr

def ContentMask.scale {K : Type} [Field K] (self : ContentMask K) (factor : K) : ContentMask K :=
  ⟨self.bounds.scale factor⟩

structure Corners (K : Type) where
  topLeft : K
  topRight : K
  bottomRight : K
  bottomLeft : K
deriving DecidableEq, Repr

structure Edges (K : Type) where
  top : K
  right : K
  bottom : K
  left : K
deriving DecidableEq, Repr

/-- A colour. -/
structure Hsla (K : Type) where
  h : K
  s : K
  l : K
  a : K
deriving DecidableEq, Repr

/-- An affine map; the matrix is stored row by row. -/
structure TransformationMatrix (K : Type) where
  rotationScale : (K × K) × (K × K)
  translation : K × K
deriving DecidableEq, Repr

inductive AtlasTextureKind where
  | monochrome
  | polychrome
deriving DecidableEq, Repr

structure AtlasTextureId where
  index : UInt32
  kind : AtlasTextureKind
deriving DecidableEq, Repr

structure AtlasTile where
  textureId : AtlasTextureId
  tileId : UInt32
  padding : UInt32
  /-- The place of the tile in its texture, in device pixels. -/
  bounds : Bounds Int
deriving DecidableEq, Repr

structure Shadow (K : Type) where
  order : DrawOrder
  blurRadius : K
  bounds : Bounds K
  cornerRadii : Corners K
  contentMask : ContentMask K
  transformation : TransformationMatrix K
deriving DecidableEq, Repr

structure Quad (K : Type) where
  order : DrawOrder
  bounds : Bounds K
  contentMask : ContentMask K
  cornerRadii : Corners K
  borderWidths : Edges K
  transformation : TransformationMatrix K
deriving DecidableEq, Repr

structure PathVertex (K : Type) where
  xyPosition : Point K
  stPosition : Point K
  contentMask : ContentMask K
deriving DecidableEq, Repr

structure Path (K : Type) where
  id : Nat
  order : DrawOrder
  bounds : Bounds K
  contentMask : ContentMask K
  vertices : List (PathVertex K)
  start : Point K
  current : Point K
deriving DecidableEq, Repr

structure Underline (K : Type) where
  order : DrawOrder
  bounds : Bounds K
  contentMask : ContentMask K
  thickness : K
deriving DecidableEq, Repr

structure MonochromeSprite (K : Type) where
  order : DrawOrder
  bounds : Bounds K
  contentMask : ContentMask K
  color : Hsla K
  tile : AtlasTile
  transformation : TransformationMatrix K
deriving DecidableEq, Repr

structure PolychromeSprite (K : Type) where
  order : DrawOrder
  grayscale : Bool
  opacity : K
  bounds : Bounds K
  contentMask : ContentMask K
  cornerRadii : Corners K
  tile : AtlasTile
  transformation : TransformationMatrix K
deriving DecidableEq, Repr

structure PaintSurface (K : Type) where
  order : DrawOrder
  bounds : Bounds K
  contentMask : ContentMask K
deriving DecidableEq, Repr

structure RasterTile (K : Type) where
  order : DrawOrder
  bounds : Bounds K
  contentMask : ContentMask K
  cacheId : UInt64
  key : UInt64
  revision : UInt64
deriving DecidableEq, Repr

inductive PrimitiveKind where
  | shadow
  | quad
  | path
  | underline
  | monochromeSprite
  | polychromeSprite
  | surface
  | rasterTile
deriving DecidableEq, Repr

namespace PrimitiveKind

/-- The position of a kind in the declaration, which is its derived order. -/
def rank : PrimitiveKind → Nat
  | shadow => 0
  | quad => 1
  | path => 2
  | underline => 3
  | monochromeSprite => 4
  | polychromeSprite => 5
  | surface => 6
  | rasterTile => 7

theorem rank_injective : Function.Injective rank := by
  intro first second equal
  cases first <;> cases second <;> first | rfl | simp [rank] at equal

instance : LinearOrder PrimitiveKind :=
  LinearOrder.lift' rank rank_injective

theorem le_iff_rank_le {first second : PrimitiveKind} :
    first ≤ second ↔ first.rank ≤ second.rank :=
  Iff.rfl

theorem shadow_le (kind : PrimitiveKind) : shadow ≤ kind :=
  le_iff_rank_le.mpr (Nat.zero_le _)

end PrimitiveKind

inductive Primitive (K : Type) where
  | shadow (shadow : Shadow K)
  | quad (quad : Quad K)
  | path (path : Path K)
  | underline (underline : Underline K)
  | monochromeSprite (sprite : MonochromeSprite K)
  | polychromeSprite (sprite : PolychromeSprite K)
  | surface (surface : PaintSurface K)
  | rasterTile (tile : RasterTile K)
deriving DecidableEq, Repr

namespace Primitive

variable {K : Type}

def kind : Primitive K → PrimitiveKind
  | .shadow _ => .shadow
  | .quad _ => .quad
  | .path _ => .path
  | .underline _ => .underline
  | .monochromeSprite _ => .monochromeSprite
  | .polychromeSprite _ => .polychromeSprite
  | .surface _ => .surface
  | .rasterTile _ => .rasterTile

def order : Primitive K → DrawOrder
  | .shadow item => item.order
  | .quad item => item.order
  | .path item => item.order
  | .underline item => item.order
  | .monochromeSprite item => item.order
  | .polychromeSprite item => item.order
  | .surface item => item.order
  | .rasterTile item => item.order

/-- The atlas tile of a sprite. -/
def tile : Primitive K → Option AtlasTile
  | .monochromeSprite sprite => some sprite.tile
  | .polychromeSprite sprite => some sprite.tile
  | _ => none

def bounds : Primitive K → Bounds K
  | .shadow item => item.bounds
  | .quad item => item.bounds
  | .path item => item.bounds
  | .underline item => item.bounds
  | .monochromeSprite item => item.bounds
  | .polychromeSprite item => item.bounds
  | .surface item => item.bounds
  | .rasterTile item => item.bounds

def contentMask : Primitive K → ContentMask K
  | .shadow item => item.contentMask
  | .quad item => item.contentMask
  | .path item => item.contentMask
  | .underline item => item.contentMask
  | .monochromeSprite item => item.contentMask
  | .polychromeSprite item => item.contentMask
  | .surface item => item.contentMask
  | .rasterTile item => item.contentMask

end Primitive

/-! ## Transforming a primitive -/

section Transform

variable {K : Type} [Field K] [LinearOrder K]

namespace TransformationMatrix

def unit : TransformationMatrix K where
  rotationScale := ((1, 0), (0, 1))
  translation := (0, 0)

/-- First `other`, then `self`. -/
def compose (self other : TransformationMatrix K) : TransformationMatrix K :=
  if other = unit then self
  else
    { rotationScale :=
        ((self.rotationScale.1.1 * other.rotationScale.1.1
              + self.rotationScale.1.2 * other.rotationScale.2.1,
            self.rotationScale.1.1 * other.rotationScale.1.2
              + self.rotationScale.1.2 * other.rotationScale.2.2),
          (self.rotationScale.2.1 * other.rotationScale.1.1
              + self.rotationScale.2.2 * other.rotationScale.2.1,
            self.rotationScale.2.1 * other.rotationScale.1.2
              + self.rotationScale.2.2 * other.rotationScale.2.2))
      translation :=
        (self.translation.1
            + self.rotationScale.1.1 * other.translation.1
            + self.rotationScale.1.2 * other.translation.2,
          self.translation.2
            + self.rotationScale.2.1 * other.translation.1
            + self.rotationScale.2.2 * other.translation.2) }

end TransformationMatrix

def transformPoint (point : Point K) (scale : K) (translation : Point K) : Point K :=
  ⟨point.x * scale + translation.x, point.y * scale + translation.y⟩

def transformBounds (bounds : Bounds K) (scale : K) (translation : Point K) : Bounds K :=
  ⟨transformPoint bounds.origin scale translation,
    ⟨bounds.size.width * scale, bounds.size.height * scale⟩⟩

namespace Primitive

/-- The closure `transform_mask` of `transformed`. -/
def transformMask (mask : ContentMask K) (scale : K) (translation : Point K) : ContentMask K :=
  { mask with bounds := transformBounds mask.bounds scale translation }

/-- The closure `conjugate` of `transformed`. -/
def conjugate (matrix : TransformationMatrix K) (scale : K) (translation : Point K) :
    TransformationMatrix K :=
  let global : TransformationMatrix K :=
    { rotationScale := ((scale, 0), (0, scale))
      translation := (translation.x, translation.y) }
  let inverseScale := 1 / scale
  let inverse : TransformationMatrix K :=
    { rotationScale := ((inverseScale, 0), (0, inverseScale))
      translation := (-translation.x * inverseScale, -translation.y * inverseScale) }
  (global.compose matrix).compose inverse

/-- The closure `transform_corners` of `transformed`. -/
def transformCorners (corners : Corners K) (scale : K) : Corners K where
  topLeft := corners.topLeft * scale
  topRight := corners.topRight * scale
  bottomRight := corners.bottomRight * scale
  bottomLeft := corners.bottomLeft * scale

def transformed (self : Primitive K) (scale : K) (translation : Point K) : Primitive K :=
  match self with
  | .shadow template =>
      .shadow { template with
        bounds := transformBounds template.bounds scale translation
        blurRadius := template.blurRadius * scale
        cornerRadii := transformCorners template.cornerRadii scale
        contentMask := transformMask template.contentMask scale translation
        transformation := conjugate template.transformation scale translation }
  | .quad template =>
      .quad { template with
        bounds := transformBounds template.bounds scale translation
        contentMask := transformMask template.contentMask scale translation
        cornerRadii := transformCorners template.cornerRadii scale
        borderWidths :=
          { top := template.borderWidths.top * scale
            right := template.borderWidths.right * scale
            bottom := template.borderWidths.bottom * scale
            left := template.borderWidths.left * scale }
        transformation := conjugate template.transformation scale translation }
  | .path template =>
      .path { template with
        bounds := transformBounds template.bounds scale translation
        contentMask := transformMask template.contentMask scale translation
        start := transformPoint template.start scale translation
        current := transformPoint template.current scale translation
        vertices := template.vertices.map fun vertex =>
          { vertex with
            xyPosition := transformPoint vertex.xyPosition scale translation
            contentMask := transformMask vertex.contentMask scale translation } }
  | .underline template =>
      .underline { template with
        bounds := transformBounds template.bounds scale translation
        contentMask := transformMask template.contentMask scale translation
        thickness := template.thickness * scale }
  | .monochromeSprite template =>
      .monochromeSprite { template with
        bounds := transformBounds template.bounds scale translation
        contentMask := transformMask template.contentMask scale translation
        transformation := conjugate template.transformation scale translation }
  | .polychromeSprite template =>
      .polychromeSprite { template with
        bounds := transformBounds template.bounds scale translation
        contentMask := transformMask template.contentMask scale translation
        cornerRadii := transformCorners template.cornerRadii scale
        transformation := conjugate template.transformation scale translation }
  | .surface template =>
      .surface { template with
        bounds := transformBounds template.bounds scale translation
        contentMask := transformMask template.contentMask scale translation }
  | .rasterTile template =>
      .rasterTile { template with
        bounds := transformBounds template.bounds scale translation
        contentMask := transformMask template.contentMask scale translation }

end Primitive

end Transform

end Gpui
