import Gpui.TextSystem.LineLayout

/-!
# Positions and indices in a text

A measured text is a list of lines, one for each line of the text between newlines, and
each of them wrapped into rows.  The position of a byte is found line by line and row by
row, and so is the byte at a position.

The outer `Option` of a result is `none` where the source panics.
-/

namespace Gpui

variable {K : Type}

namespace LineLayout

def glyphs (self : LineLayout K) : List (ShapedGlyph K) :=
  self.runs.flatMap ShapedRun.glyphs

/-- `self.runs[boundary.run_ix].glyphs[boundary.glyph_ix]`. -/
def glyphAt (self : LineLayout K) (boundary : WrapBoundary) : Option (ShapedGlyph K) :=
  self.runs[boundary.runIx]?.bind fun run => run.glyphs[boundary.glyphIx]?

variable [LinearOrder K]

/-- The index for the character at the given x coordinate. -/
def indexForX (self : LineLayout K) (x : K) : Option Nat :=
  if x ≥ self.width then none
  else
    match self.glyphs.reverse.find? fun glyph => glyph.position.x ≤ x with
    | some glyph => some glyph.index
    | none => some 0

omit [LinearOrder K] in
/-- The x position of the character at the given index. -/
def xForIndex (self : LineLayout K) (index : Nat) : K :=
  match self.glyphs.find? fun glyph => glyph.index ≥ index with
  | some glyph => glyph.position.x
  | none => self.width

end LineLayout

namespace WrappedLineLayout

def len (self : WrappedLineLayout K) : Nat :=
  self.unwrappedLayout.len

/-- The height of `WrappedLineLayout::size`. -/
def height [Field K] (self : WrappedLineLayout K) (lineHeight : K) : K :=
  lineHeight * (self.wrapBoundaries.length + 1 : Nat)

/-- The index and the x of the first glyph of a row; there may be no such row. -/
def wrappedLineStart [Zero K] (self : WrappedLineLayout K) (wrappedLineIx : Nat) :
    Option (Option (Nat × K)) :=
  if wrappedLineIx > 0 then
    match self.wrapBoundaries[wrappedLineIx - 1]? with
    | some boundary => do
        let glyph ← self.unwrappedLayout.glyphAt boundary
        return some (glyph.index, glyph.position.x)
    | none => some none
  else some (some (0, 0))

/-- The index and the x of what follows a row. -/
def wrappedLineEnd (self : WrappedLineLayout K) (wrappedLineIx : Nat) : Option (Nat × K) :=
  match self.wrapBoundaries[wrappedLineIx]? with
  | some boundary => do
      let glyph ← self.unwrappedLayout.glyphAt boundary
      return (glyph.index, glyph.position.x)
  | none => some (self.unwrappedLayout.len, self.unwrappedLayout.width)

variable [Field K] [LinearOrder K]

/-- `_index_for_position`, for an index that need not be the closest. -/
def indexForPosition [FloorSemiring K] (self : WrappedLineLayout K) (position : Point K)
    (lineHeight : K) : Option (Except Nat Nat) := do
  let wrappedLineIx := ⌊position.y / lineHeight⌋₊
  match ← self.wrappedLineStart wrappedLineIx with
  | none => return .error 0
  | some (wrappedLineStartIndex, wrappedLineStartX) =>
      let (wrappedLineEndIndex, wrappedLineEndX) ← self.wrappedLineEnd wrappedLineIx
      let x := position.x + wrappedLineStartX
      if x < wrappedLineStartX then return .error wrappedLineStartIndex
      else if x ≥ wrappedLineEndX then return .error wrappedLineEndIndex
      else return .ok (← self.unwrappedLayout.indexForX x)

omit [LinearOrder K] in
/-- The loop over the ends of the rows. -/
def positionInRows (self : WrappedLineLayout K) (index : Nat) (lineHeight : K) :
    Nat → Nat → List Nat → Option (Point K)
  | _, _, [] => none
  | ix, lineStartIx, lineEndIx :: lineEndIndices =>
      if index < lineStartIx then none
      else if index > lineEndIx then
        self.positionInRows index lineHeight (ix + 1) lineEndIx lineEndIndices
      else
        some
          { x := self.unwrappedLayout.xForIndex index - self.unwrappedLayout.xForIndex lineStartIx
            y := ix * lineHeight }

omit [LinearOrder K] in
/-- The pixel position for the given byte index. -/
def positionForIndex (self : WrappedLineLayout K) (index : Nat) (lineHeight : K) :
    Option (Option (Point K)) := do
  let wrapped ← self.wrapBoundaries.mapM self.unwrappedLayout.glyphAt
  return self.positionInRows index lineHeight 0 0 (wrapped.map ShapedGlyph.index ++ [self.len])

end WrappedLineLayout

/-- A text that has been measured and prepainted. -/
structure TextLayout (K : Type) where
  lines : List (WrappedLineLayout K)
  lineHeight : K
  bounds : Bounds K

namespace TextLayout

/-- An index within a line, as one of the text. -/
def inText (lineStartIx : Nat) : Except Nat Nat → Except Nat Nat
  | .ok indexWithinLine => .ok (lineStartIx + indexWithinLine)
  | .error indexWithinLine => .error (lineStartIx + indexWithinLine)

variable [Field K] [LinearOrder K]

/-- The loop over the lines, which ends in the line whose bottom is not above the
position. -/
def indexInLines [FloorSemiring K] (lineHeight : K) (position : Point K) :
    List (WrappedLineLayout K) → Point K → Nat → Option (Except Nat Nat)
  | [], _, lineStartIx => some (.error (lineStartIx - 1))
  | line :: lines, lineOrigin, lineStartIx =>
      let lineBottom := lineOrigin.y + line.height lineHeight
      if position.y > lineBottom then
        indexInLines lineHeight position lines { lineOrigin with y := lineBottom }
          (lineStartIx + (line.len + 1))
      else
        (line.indexForPosition (position.sub lineOrigin) lineHeight).map (inText lineStartIx)

/-- The byte index into the input of the pixel position. -/
def indexForPosition [FloorSemiring K] (self : TextLayout K) (position : Point K) :
    Option (Except Nat Nat) :=
  if position.y < self.bounds.origin.y then some (.error 0)
  else indexInLines self.lineHeight position self.lines self.bounds.origin 0

omit [LinearOrder K] in
def positionInLines (lineHeight : K) (index : Nat) :
    List (WrappedLineLayout K) → Point K → Nat → Option (Option (Point K))
  | [], _, _ => some none
  | line :: lines, lineOrigin, lineStartIx =>
      let lineEndIx := lineStartIx + line.len
      if index < lineStartIx then some none
      else if index > lineEndIx then
        positionInLines lineHeight index lines
          { lineOrigin with y := lineOrigin.y + line.height lineHeight } (lineEndIx + 1)
      else do
        let position ← line.positionForIndex (index - lineStartIx) lineHeight
        return position.map lineOrigin.add

omit [LinearOrder K] in
/-- The pixel position for the given byte index. -/
def positionForIndex (self : TextLayout K) (index : Nat) : Option (Option (Point K)) :=
  positionInLines self.lineHeight index self.lines self.bounds.origin 0

end TextLayout

end Gpui
