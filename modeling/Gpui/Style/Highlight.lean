import Gpui.Scene.Primitive
import Gpui.TextSystem.ShapedRuns
import Gpui.TextSystem.TextMeasure

/-!
# Highlights

A highlight style blends with another: colours are blended, the fade is scaled and what else
the other has replaces what there is.  A text style takes a highlight alike.

Colours are exact, and so are the operations of floating-point numbers on them.
-/

namespace Gpui

/-- `%` of floating-point numbers, which has the sign of the dividend. -/
def floatRem {K : Type} [Field K] [LinearOrder K] [FloorRing K] (dividend divisor : K) : K :=
  let quotient := dividend / divisor
  let truncated := if 0 ≤ quotient then ⌊quotient⌋ else ⌈quotient⌉
  dividend - divisor * truncated

/-- `round` of floating-point numbers, away from zero in the middle. -/
def floatRound {K : Type} [Field K] [LinearOrder K] [FloorRing K] (value : K) : Int :=
  if 0 ≤ value then ⌊value + 1 / ((2 : ℕ) : K)⌋ else ⌈value - 1 / ((2 : ℕ) : K)⌉

def remEuclid {K : Type} [Field K] [LinearOrder K] [FloorRing K] (dividend divisor : K) : K :=
  let rem := floatRem dividend divisor
  if rem < 0 then rem + |divisor| else rem

/-- `clamp(0., 1.)`. -/
def clampUnit {K : Type} [Field K] [LinearOrder K] (value : K) : K :=
  if value < 0 then 0 else if 1 < value then 1 else value

structure Rgba (K : Type) where
  r : K
  g : K
  b : K
  a : K
deriving DecidableEq, Repr

section Colors

variable {K : Type} [Field K] [LinearOrder K]

def Rgba.blend (self other : Rgba K) : Rgba K :=
  if 1 ≤ other.a then other
  else if other.a ≤ 0 then self
  else
    { r := self.r * (1 - other.a) + other.r * other.a
      g := self.g * (1 - other.a) + other.g * other.a
      b := self.b * (1 - other.a) + other.b * other.a
      a := self.a }

namespace Hsla

variable [FloorRing K]

/-- `Rgba::from`. -/
def toRgba (color : Hsla K) : Rgba K :=
  let c := (1 - |((2 : ℕ) : K) * color.l - 1|) * color.s
  let x := c * (1 - |floatRem (color.h * ((6 : ℕ) : K)) ((2 : ℕ) : K) - 1|)
  let m := color.l - c / ((2 : ℕ) : K)
  let cm := c + m
  let xm := x + m
  let (r, g, b) :=
    match ⌊color.h * ((6 : ℕ) : K)⌋ with
    | 0 | 6 => (cm, xm, m)
    | 1 => (xm, cm, m)
    | 2 => (m, cm, xm)
    | 3 => (m, xm, cm)
    | 4 => (xm, m, cm)
    | _ => (cm, m, xm)
  { r := clampUnit r, g := clampUnit g, b := clampUnit b, a := color.a }

/-- `Hsla::from`. -/
def ofRgba (color : Rgba K) : Hsla K :=
  let max := max color.r (max color.g color.b)
  let min := min color.r (min color.g color.b)
  let delta := max - min
  let l := (max + min) / ((2 : ℕ) : K)
  let s :=
    if l = 0 ∨ l = 1 then 0
    else if l < 1 / ((2 : ℕ) : K) then delta / (((2 : ℕ) : K) * l)
    else delta / (((2 : ℕ) : K) - ((2 : ℕ) : K) * l)
  let h :=
    if delta = 0 then 0
    else if max = color.r then
      remEuclid ((color.g - color.b) / delta) ((6 : ℕ) : K) / ((6 : ℕ) : K)
    else if max = color.g then
      ((color.b - color.r) / delta + ((2 : ℕ) : K)) / ((6 : ℕ) : K)
    else ((color.r - color.g) / delta + ((4 : ℕ) : K)) / ((6 : ℕ) : K)
  { h, s, l, a := color.a }

def blend (self other : Hsla K) : Hsla K :=
  if 1 ≤ other.a then other
  else if other.a ≤ 0 then self
  else ofRgba (self.toRgba.blend other.toRgba)

omit [FloorRing K] in
def fadeOut (self : Hsla K) (factor : K) : Hsla K :=
  { self with a := self.a * (1 - clampUnit factor) }

end Hsla

end Colors

inductive FontStyle where
  | normal
  | italic
  | oblique
deriving DecidableEq, Repr

structure UnderlineStyle (K : Type) where
  thickness : K
  color : Option (Hsla K)
  wavy : Bool
deriving DecidableEq, Repr

structure StrikethroughStyle (K : Type) where
  thickness : K
  color : Option (Hsla K)
deriving DecidableEq, Repr

/-- A font: its family, features and fallbacks with its weight and style. -/
structure Font (A K : Type) where
  face : A
  weight : K
  style : FontStyle
deriving DecidableEq, Repr

/-- How a run of text is drawn. -/
structure TextDecoration (K : Type) where
  color : Hsla K
  backgroundColor : Option (Hsla K)
  underline : Option (UnderlineStyle K)
  strikethrough : Option (StrikethroughStyle K)
deriving DecidableEq, Repr

structure HighlightStyle (K : Type) where
  color : Option (Hsla K)
  fontWeight : Option K
  fontStyle : Option FontStyle
  backgroundColor : Option (Hsla K)
  underline : Option (UnderlineStyle K)
  strikethrough : Option (StrikethroughStyle K)
  fadeOut : Option K
deriving DecidableEq, Repr

namespace HighlightStyle

variable {K : Type}

/-- `HighlightStyle::default()`. -/
def default : HighlightStyle K :=
  ⟨none, none, none, none, none, none, none⟩

variable [Field K] [LinearOrder K] [FloorRing K]

/-- Blend this highlight style with another. -/
def highlight (self other : HighlightStyle K) : HighlightStyle K where
  color :=
    (other.color.map fun otherColor =>
      match self.color with
      | some color => color.blend otherColor
      | none => otherColor).or self.color
  fontWeight := other.fontWeight.or self.fontWeight
  fontStyle := other.fontStyle.or self.fontStyle
  backgroundColor := other.backgroundColor.or self.backgroundColor
  underline := other.underline.or self.underline
  strikethrough := other.strikethrough.or self.strikethrough
  fadeOut :=
    (other.fadeOut.map fun sourceFade =>
      match self.fadeOut with
      | some destFade => clampUnit (destFade * (1 + sourceFade))
      | none => sourceFade).or self.fadeOut

/-- Blend highlight styles in their order. -/
def foldHighlights (highlights : List (HighlightStyle K)) : HighlightStyle K :=
  highlights.foldl highlight default

@[simp]
theorem default_highlight (self : HighlightStyle K) : default.highlight self = self := by
  rcases self with ⟨color, fontWeight, fontStyle, backgroundColor, underline, strikethrough,
    fadeOut⟩
  cases color <;> cases fontWeight <;> cases fontStyle <;> cases backgroundColor <;>
    cases underline <;> cases strikethrough <;> cases fadeOut <;> rfl

end HighlightStyle

namespace TextStyle

variable {A K : Type} [Field K] [LinearOrder K] [FloorRing K]

/-- Create a new text style with the given highlighting applied. -/
def highlight (self : TextStyle K (Font A K) (TextDecoration K)) (style : HighlightStyle K) :
    TextStyle K (Font A K) (TextDecoration K) :=
  let color :=
    match style.color with
    | some color => self.decoration.color.blend color
    | none => self.decoration.color
  let color :=
    match style.fadeOut with
    | some factor => color.fadeOut factor
    | none => color
  { self with
    font := { self.font with
      weight := style.fontWeight.getD self.font.weight
      style := style.fontStyle.getD self.font.style }
    decoration := {
      color
      backgroundColor := style.backgroundColor.or self.decoration.backgroundColor
      underline := style.underline.or self.decoration.underline
      strikethrough := style.strikethrough.or self.decoration.strikethrough } }

@[simp]
theorem highlight_default (self : TextStyle K (Font A K) (TextDecoration K)) :
    self.highlight .default = self :=
  rfl

/-- `compute_runs`: the runs of a text of a number of bytes, with highlights. -/
def computeRuns (defaultStyle : TextStyle K (Font A K) (TextDecoration K)) (textLen : Nat) :
    Nat → List ((Nat × Nat) × HighlightStyle K) → List (TextRun (Font A K) (TextDecoration K))
  | ix, [] => if ix < textLen then [defaultStyle.toRun (textLen - ix)] else []
  | ix, (range, highlight) :: highlights =>
      let between := if ix < range.1 then [defaultStyle.toRun (range.1 - ix)] else []
      between ++
        (defaultStyle.highlight highlight).toRun (range.2 - range.1) ::
          computeRuns defaultStyle textLen range.2 highlights

/-- The font and the decoration of a byte with a highlight. -/
def styleOf (self : TextStyle K (Font A K) (TextDecoration K)) (style : HighlightStyle K) :
    Font A K × TextDecoration K :=
  ((self.highlight style).font, (self.highlight style).decoration)

end TextStyle

end Gpui
