import Gpui.Library.Passes
import Gpui.Style.Highlight
import Gpui.TextSystem.TextPosition

/-!
# Painting a line

The glyphs of a line are placed one after the other, each row aligned by itself, and the
decoration runs are followed along.  A span is an underline, a strikethrough or a background
that has begun and goes on; it is painted in pieces, one for each row, until it ends.

Painting a glyph does not fail.
-/

namespace Gpui

open Library

/-- A decoration that has begun. -/
structure Span (K S : Type) where
  origin : Point K
  style : S
deriving DecidableEq

/-- A decoration on one row. -/
structure Piece (K S : Type) where
  origin : Point K
  width : K
  style : S
deriving DecidableEq

inductive TextPaint (K : Type) where
  | underline (piece : Piece K (UnderlineStyle K))
  | strikethrough (piece : Piece K (StrikethroughStyle K))
  | quad (bounds : Bounds K) (background : Hsla K)
  | glyph (origin : Point K) (fontId : FontId) (glyphId : GlyphId) (fontSize : K)
      (color : Hsla K)
  | emoji (origin : Point K) (fontId : FontId) (glyphId : GlyphId) (fontSize : K)
deriving DecidableEq

/-- A glyph of a run, and where the run has it. -/
structure RunGlyph (K : Type) where
  boundary : WrapBoundary
  fontId : FontId
  glyph : ShapedGlyph K

/-- The glyphs of all runs, with their places among them. -/
def LineLayout.runGlyphs {K : Type} (self : LineLayout K) : List (RunGlyph K) :=
  (self.runs.mapIdx fun runIx run =>
    run.glyphs.mapIdx fun glyphIx glyph => ⟨⟨runIx, glyphIx⟩, run.fontId, glyph⟩).flatten

/-- What the style run of a glyph is, next to that of the glyph before. -/
inductive StyleChange (D : Type) where
  | inside
  | run (decoration : D)
  | exhausted
deriving DecidableEq

/-- Take style runs until one has the byte `index`, ignoring those that apply to a partial
glyph. -/
def seekRun {D : Type} (len index : Nat) :
    Nat → List (DecorationRun D) → StyleChange D × Nat × List (DecorationRun D)
  | _, [] => (.exhausted, len, [])
  | runEnd, run :: runs =>
      if index < runEnd + run.len.toNat then
        (.run run.decoration, runEnd + run.len.toNat, runs)
      else seekRun len index (runEnd + run.len.toNat) runs

/-- Where the loop is in the line. -/
structure LineCursor (K : Type) where
  glyphOrigin : Point K
  prevGlyphPosition : Point K
  wraps : List WrapBoundary
  runEnd : Nat
  decorationRuns : List (DecorationRun (TextDecoration K))

/-- A glyph where it is placed, and its style run. -/
structure Mark (K : Type) where
  boundary : WrapBoundary
  fontId : FontId
  glyph : ShapedGlyph K
  /-- Where the row before ends, if this is the first glyph of a row. -/
  wrappedAt : Option K
  origin : Point K
  change : StyleChange (TextDecoration K)
deriving DecidableEq

/-- Where the glyph stands before it is wrapped. -/
def Mark.enteredX {K : Type} (self : Mark K) : K :=
  self.wrappedAt.getD self.origin.x

/-- The arguments of `paint_line` and of `paint_line_background`, with the sizes of glyphs
and the bounds of the content mask. -/
structure LineToPaint (K : Type) where
  origin : Point K
  layout : LineLayout K
  lineHeight : K
  align : TextAlign
  alignWidth : Option K
  decorationRuns : List (DecorationRun (TextDecoration K))
  wrapBoundaries : List WrapBoundary
  boundingBox : FontId → K → Bounds K
  contentMask : Bounds K

variable {K S : Type} [Field K]

/-- `None` where there is no glyph at the boundary. -/
def alignedOriginX (origin : Point K) (alignWidth lastGlyphX : K) (align : TextAlign)
    (layout : LineLayout K) (wrapBoundary : Option WrapBoundary) : Option K := do
  let endOfLine ←
    match wrapBoundary with
    | some boundary => (layout.glyphAt boundary).map fun glyph => glyph.position.x
    | none => some layout.width
  let lineWidth := endOfLine - lastGlyphX
  return match align with
    | .left => origin.x
    | .center => (origin.x * ((2 : ℕ) : K) + alignWidth - lineWidth) / ((2 : ℕ) : K)
    | .right => origin.x + alignWidth - lineWidth

namespace LineToPaint

variable (line : LineToPaint K)

/-- Where a row begins with a glyph at `lastGlyphX` of the layout. -/
def rowOriginX (lastGlyphX : K) (wrapBoundary : Option WrapBoundary) : Option K :=
  alignedOriginX line.origin (line.alignWidth.getD line.layout.width) lastGlyphX line.align
    line.layout wrapBoundary

def start : Option (LineCursor K) := do
  let x ← line.rowOriginX 0 line.wrapBoundaries.head?
  return {
    glyphOrigin := ⟨x, line.origin.y⟩
    prevGlyphPosition := ⟨0, 0⟩
    wraps := line.wrapBoundaries
    runEnd := 0
    decorationRuns := line.decorationRuns }

/-- Where the row before ends if the glyph is wrapped, where the glyph is placed and the
wraps that are left. -/
def place (cursor : LineCursor K) (entry : RunGlyph K) :
    Option (Option K × Point K × List WrapBoundary) :=
  let x := cursor.glyphOrigin.x + (entry.glyph.position.x - cursor.prevGlyphPosition.x)
  if cursor.wraps.head? = some entry.boundary then
    (line.rowOriginX entry.glyph.position.x cursor.wraps.tail.head?).map fun rowX =>
      (some x, ⟨rowX, cursor.glyphOrigin.y + line.lineHeight⟩, cursor.wraps.tail)
  else some (none, ⟨x, cursor.glyphOrigin.y⟩, cursor.wraps)

/-- The style run of a glyph, and the end of that run and the runs that are left. -/
def findRun (cursor : LineCursor K) (index : Nat) :
    StyleChange (TextDecoration K) × Nat × List (DecorationRun (TextDecoration K)) :=
  if index ≥ cursor.runEnd then
    seekRun line.layout.len index cursor.runEnd cursor.decorationRuns
  else (.inside, cursor.runEnd, cursor.decorationRuns)

/-- Place a glyph, and find its style run. -/
def next (cursor : LineCursor K) (entry : RunGlyph K) : Option (Mark K × LineCursor K) := do
  let (wrappedAt, origin, wraps) ← line.place cursor entry
  let (change, runEnd, decorationRuns) := line.findRun cursor entry.glyph.index
  return (
    { boundary := entry.boundary, fontId := entry.fontId, glyph := entry.glyph, wrappedAt,
      origin, change },
    { glyphOrigin := origin, prevGlyphPosition := entry.glyph.position, wraps, runEnd,
      decorationRuns })

/-- `max_glyph_size` of a run. -/
def maxGlyphSize (fontId : FontId) : Size K :=
  (line.boundingBox fontId line.layout.fontSize).size

/-- Half the width of the largest glyph of a run. -/
def halfGlyph (fontId : FontId) : K :=
  (line.maxGlyphSize fontId).width / ((2 : ℕ) : K)

/-- The same after the loop, which may not have seen a run. -/
def lastHalfGlyph : K :=
  match line.layout.runs.getLast? with
  | some run => line.halfGlyph run.fontId
  | none => 0

/-- The baseline below the top of its row. -/
def baselineOffset : Point K :=
  ⟨0, (line.lineHeight - line.layout.ascent - line.layout.descent) / ((2 : ℕ) : K) +
    line.layout.ascent⟩

/-- `last_line_end_x`, for a line that begins at an x. -/
def lastLineEndX (x : K) : Option K :=
  match line.wrapBoundaries.getLast? with
  | some boundary =>
      (line.layout.glyphAt boundary).map fun glyph => x + line.layout.width - glyph.position.x
  | none => some (x + line.layout.width)

end LineToPaint

section

variable [DecidableEq K]

/-- The piece of a span up to an x, which is put in front where it would have no width. -/
def Span.pieceUpTo (span : Span K S) (x half : K) : Piece K S :=
  let startX := if x = span.origin.x then span.origin.x - half else span.origin.x
  ⟨⟨startX, span.origin.y⟩, x - startX, span.style⟩

/-- The same, with the width it had before. -/
def Span.quadUpTo (span : Span K S) (x half : K) : Piece K S :=
  let width := x - span.origin.x
  let startX := if span.origin.x = x then span.origin.x - half else span.origin.x
  ⟨⟨startX, span.origin.y⟩, width, span.style⟩

/-- A span that has a width is painted as it is. -/
theorem Span.pieceUpTo_of_ne (span : Span K S) {x : K} (half : K) (wide : span.origin.x ≠ x) :
    span.pieceUpTo x half = ⟨span.origin, x - span.origin.x, span.style⟩ := by
  rw [Span.pieceUpTo, if_neg wide.symm]

theorem Span.quadUpTo_of_ne (span : Span K S) {x : K} (half : K) (wide : span.origin.x ≠ x) :
    span.quadUpTo x half = ⟨span.origin, x - span.origin.x, span.style⟩ := by
  rw [Span.quadUpTo, if_neg wide]

/-- A kind of decoration: what a run asks for, what is painted for it and how far below the
top of the row, and the piece that is painted where another run ends it. -/
structure SpanKind (K S : Type) [Field K] where
  asked : TextDecoration K → Option S
  resolve : TextDecoration K → S → S
  offset : K
  finish : Span K S → K → K → Piece K S
  /-- What is resolved once is resolved for every run. -/
  resolve_resolve : ∀ decoration other style,
    resolve other (resolve decoration style) = resolve decoration style
  finish_of_ne : ∀ (span : Span K S) (x half : K), span.origin.x ≠ x →
    finish span x half = ⟨span.origin, x - span.origin.x, span.style⟩

namespace LineToPaint

variable (line : LineToPaint K)

def underlineKind : SpanKind K (UnderlineStyle K) where
  asked decoration := decoration.underline
  resolve decoration style := { style with color := some (style.color.getD decoration.color) }
  offset := line.baselineOffset.y + line.layout.descent * (((618 : ℕ) : K) / ((1000 : ℕ) : K))
  finish := Span.pieceUpTo
  resolve_resolve := fun _ _ _ => rfl
  finish_of_ne := fun span _ half wide => span.pieceUpTo_of_ne half wide

def strikethroughKind : SpanKind K (StrikethroughStyle K) where
  asked decoration := decoration.strikethrough
  resolve decoration style := { style with color := some (style.color.getD decoration.color) }
  offset := (line.layout.ascent / ((2 : ℕ) : K) + line.baselineOffset.y) / ((2 : ℕ) : K)
  finish := Span.pieceUpTo
  resolve_resolve := fun _ _ _ => rfl
  finish_of_ne := fun span _ half wide => span.pieceUpTo_of_ne half wide

def backgroundKind : SpanKind K (Hsla K) where
  asked decoration := decoration.backgroundColor
  resolve _ color := color
  offset := 0
  finish := Span.quadUpTo
  resolve_resolve := fun _ _ _ => rfl
  finish_of_ne := fun span _ half wide => span.quadUpTo_of_ne half wide

/-- Paint a span that goes on, at the first glyph of a row, and begin it again on the row. -/
def wrapSpan (mark : Mark K) (current : Option (Span K S)) :
    List (Piece K S) × Option (Span K S) :=
  match mark.wrappedAt, current with
  | some x, some span =>
      ([span.pieceUpTo x (line.halfGlyph mark.fontId)],
        some { span with origin := ⟨line.origin.x, span.origin.y + line.lineHeight⟩ })
  | _, current => ([], current)

end LineToPaint

namespace SpanKind

variable (kind : SpanKind K S)

/-- The span that a run begins at a glyph. -/
def begin (origin : Point K) (decoration : TextDecoration K) : Option (Span K S) :=
  (kind.asked decoration).map fun style =>
    ⟨⟨origin.x, origin.y + kind.offset⟩, kind.resolve decoration style⟩

variable [DecidableEq S]

/-- The span that the style run of a glyph finishes, and the one that goes on. -/
def changeSpan (mark : Mark K) (current : Option (Span K S)) :
    Option (Span K S) × Option (Span K S) :=
  match mark.change with
  | .inside => (none, current)
  | .exhausted => (current, none)
  | .run decoration =>
      match current with
      | none => (none, kind.begin mark.origin decoration)
      | some span =>
          if kind.asked decoration = some span.style then (none, some span)
          else (some span, kind.begin mark.origin decoration)

/-- Paint the span that is finished. -/
def finishSpan (line : LineToPaint K) (mark : Mark K) (finished : Option (Span K S)) :
    List (Piece K S) :=
  (finished.map fun span =>
    kind.finish span mark.origin.x (line.halfGlyph mark.fontId)).toList

end SpanKind

/-- Paint the span that goes on to the end of the line. -/
def closeSpan (current : Option (Span K S)) (x half : K) : List (Piece K S) :=
  (current.map fun span => span.pieceUpTo x half).toList

end

variable [LinearOrder K]

/-- The color of the glyphs, the decorations that go on and what is painted. -/
structure LinePainter (K : Type) where
  color : Hsla K
  currentUnderline : Option (Span K (UnderlineStyle K))
  currentStrikethrough : Option (Span K (StrikethroughStyle K))
  firstGlyphX : K
  painted : List (TextPaint K)

structure BackgroundPainter (K : Type) where
  currentBackground : Option (Span K (Hsla K))
  painted : List (TextPaint K)

namespace LineToPaint

variable (line : LineToPaint K)

/-- Paint a glyph where the content mask shows it. -/
def paintGlyph (mark : Mark K) (color : Hsla K) : List (TextPaint K) :=
  let maxGlyphBounds : Bounds K := ⟨mark.origin, line.maxGlyphSize mark.fontId⟩
  if maxGlyphBounds.intersects line.contentMask then
    let origin := (mark.origin.add line.baselineOffset).add ⟨0, mark.glyph.position.y⟩
    if mark.glyph.isEmoji then
      [.emoji origin mark.fontId mark.glyph.id line.layout.fontSize]
    else [.glyph origin mark.fontId mark.glyph.id line.layout.fontSize color]
  else []

def backgroundQuad (piece : Piece K (Hsla K)) : TextPaint K :=
  .quad ⟨piece.origin, ⟨piece.width, line.lineHeight⟩⟩ piece.style

/-- The body of the loop of `paint_line`, for a glyph that is placed. -/
def paintMark (painter : LinePainter K) (mark : Mark K) : LinePainter K :=
  let firstGlyphX :=
    if mark.boundary = ⟨0, 0⟩ then mark.enteredX else painter.firstGlyphX
  let (wrappedUnderline, underline) := line.wrapSpan mark painter.currentUnderline
  let (wrappedStrikethrough, strikethrough) :=
    line.wrapSpan mark painter.currentStrikethrough
  let (finishedUnderline, currentUnderline) := line.underlineKind.changeSpan mark underline
  let (finishedStrikethrough, currentStrikethrough) :=
    line.strikethroughKind.changeSpan mark strikethrough
  let color :=
    match mark.change with
    | .run decoration => decoration.color
    | _ => painter.color
  { color, currentUnderline, currentStrikethrough, firstGlyphX
    painted := painter.painted ++ wrappedUnderline.map .underline ++
      wrappedStrikethrough.map .strikethrough ++
      (line.underlineKind.finishSpan line mark finishedUnderline).map .underline ++
      (line.strikethroughKind.finishSpan line mark finishedStrikethrough).map
        .strikethrough ++
      line.paintGlyph mark color }

def paintLine : Option (List (TextPaint K)) := do
  let cursor ← line.start
  let (_, painter) ← line.layout.runGlyphs.foldlM (readThenWrite line.next line.paintMark)
    (cursor,
      { color := ⟨0, 0, 0, 1⟩
        currentUnderline := none
        currentStrikethrough := none
        firstGlyphX := line.origin.x
        painted := [] })
  let lastLineEndX ← line.lastLineEndX painter.firstGlyphX
  return painter.painted ++
    (closeSpan painter.currentUnderline lastLineEndX line.lastHalfGlyph).map .underline ++
    (closeSpan painter.currentStrikethrough lastLineEndX line.lastHalfGlyph).map
      .strikethrough

/-- The body of the loop of `paint_line_background`, for a glyph that is placed. -/
def paintBackgroundMark (painter : BackgroundPainter K) (mark : Mark K) :
    BackgroundPainter K :=
  let (wrapped, background) := line.wrapSpan mark painter.currentBackground
  let (finished, currentBackground) := backgroundKind.changeSpan mark background
  { currentBackground
    painted := painter.painted ++ wrapped.map line.backgroundQuad ++
      (backgroundKind.finishSpan line mark finished).map line.backgroundQuad }

def paintLineBackground : Option (List (TextPaint K)) := do
  let cursor ← line.start
  let (_, painter) ← line.layout.runGlyphs.foldlM
    (readThenWrite line.next line.paintBackgroundMark)
    (cursor, { currentBackground := none, painted := [] })
  let lastLineEndX ← line.lastLineEndX line.origin.x
  return painter.painted ++
    (closeSpan painter.currentBackground lastLineEndX line.lastHalfGlyph).map
      line.backgroundQuad

end LineToPaint

end Gpui
