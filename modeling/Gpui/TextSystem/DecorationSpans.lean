import Gpui.Library.RowCover
import Gpui.TextSystem.PaintLine

/-!
# What the decorations of a line cover

A glyph reaches from where it is placed to where the glyph after it would be, and the last
to the width of the line.  Backgrounds and underlines are to cover the glyphs whose style run
has them, row by row.

A span that goes on on another row begins there at the origin of the line, however that row
is aligned, and the end of the last row is reckoned from the start of the first row, or from
the origin.
-/

namespace Gpui

open Library

/-! ## The style runs -/

section Runs

variable {D : Type}

/-- The decoration of the run that has a byte. -/
def decorationAt : List (DecorationRun D) → Nat → Option D
  | [], _ => none
  | run :: runs, index =>
      if index < run.len.toNat then some run.decoration
      else decorationAt runs (index - run.len.toNat)

def runsLen (runs : List (DecorationRun D)) : Nat :=
  (runs.map fun run => run.len.toNat).sum

theorem decorationAt_append (passed runs : List (DecorationRun D)) (index : Nat) :
    decorationAt (passed ++ runs) (runsLen passed + index) = decorationAt runs index := by
  induction passed with
  | nil => simp [runsLen]
  | cons run passed ih =>
      have beyond : ¬ runsLen (run :: passed) + index < run.len.toNat := by
        simp only [runsLen, List.map_cons, List.sum_cons]
        omega
      have rest : runsLen (run :: passed) + index - run.len.toNat = runsLen passed + index := by
        simp only [runsLen, List.map_cons, List.sum_cons]
        omega
      rw [List.cons_append, decorationAt, if_neg beyond, rest, ih]

/-- Beyond all runs there is no decoration. -/
theorem decorationAt_of_le {runs : List (DecorationRun D)} {index : Nat}
    (beyond : runsLen runs ≤ index) : decorationAt runs index = none := by
  have ended := decorationAt_append runs [] (index - runsLen runs)
  rw [List.append_nil, Nat.add_sub_cancel' beyond] at ended
  exact ended

/-- The bytes of a run. -/
theorem decorationAt_run {passed runs : List (DecorationRun D)} {run : DecorationRun D}
    {index : Nat} (from_ : runsLen passed ≤ index)
    (before : index < runsLen passed + run.len.toNat) :
    decorationAt (passed ++ run :: runs) index = some run.decoration := by
  have within : index - runsLen passed < run.len.toNat := by omega
  have found := decorationAt_append passed (run :: runs) (index - runsLen passed)
  rw [Nat.add_sub_cancel' from_, decorationAt, if_pos within] at found
  exact found

/-- The decoration after a change. -/
def StyleChange.after (found : Option D) : StyleChange D → Option D
  | .inside => found
  | .run decoration => some decoration
  | .exhausted => none

/-- What is known of the style runs when the leading byte so far has a decoration, unless
no byte was looked for. -/
inductive Sought (runs : List (DecorationRun D)) (leading : Nat) (found : Option D) :
    Nat → List (DecorationRun D) → Prop where
  | fresh (first : leading = 0) : Sought runs leading found 0 runs
  | inRun {passed rest : List (DecorationRun D)} {run : DecorationRun D}
      (split : runs = passed ++ run :: rest) (from_ : runsLen passed ≤ leading)
      (before : leading < runsLen passed + run.len.toNat)
      (isFound : found = some run.decoration) :
      Sought runs leading found (runsLen passed + run.len.toNat) rest
  | exhausted {runEnd : Nat} (beyond : runsLen runs ≤ leading) (isFound : found = none) :
      Sought runs leading found runEnd []

/-- Taking runs from the first that begins at or before the byte. -/
theorem sought_seekRun (len : Nat) {runs rest : List (DecorationRun D)}
    (passed : List (DecorationRun D)) (split : runs = passed ++ rest) {index : Nat}
    (from_ : runsLen passed ≤ index) (found : Option D) :
    Sought runs index ((seekRun len index (runsLen passed) rest).1.after found)
        (seekRun len index (runsLen passed) rest).2.1
        (seekRun len index (runsLen passed) rest).2.2 ∧
      (seekRun len index (runsLen passed) rest).1.after found = decorationAt runs index := by
  induction rest generalizing passed with
  | nil =>
      rw [List.append_nil] at split
      subst split
      rw [seekRun]
      constructor
      · exact .exhausted from_ rfl
      · exact (decorationAt_of_le from_).symm
  | cons run rest ih =>
      rw [seekRun]
      by_cases before : index < runsLen passed + run.len.toNat
      · rw [if_pos before]
        constructor
        · exact .inRun split from_ before rfl
        · rw [split, decorationAt_run from_ before]
          rfl
      · rw [if_neg before]
        have next : runsLen (passed ++ [run]) = runsLen passed + run.len.toNat := by
          simp [runsLen]
        have further := ih (passed ++ [run]) (by simpa using split)
          (by rw [next]; exact not_lt.mp before)
        rw [next] at further
        exact further

end Runs

section Marks

variable {K : Type}

/-- The decoration in force after glyphs. -/
def foundAfter (found : Option (TextDecoration K)) (marks : List (Mark K)) :
    Option (TextDecoration K) :=
  marks.foldl (fun found mark => mark.change.after found) found

/-- The largest byte that glyphs stand for. -/
def leadingIndex (leading : Nat) (marks : List (Mark K)) : Nat :=
  marks.foldl (fun leading mark => max leading mark.glyph.index) leading

variable [Field K] (line : LineToPaint K)

omit [Field K] in
theorem Sought.findRun (line : LineToPaint K) {cursor : LineCursor K}
    {runs : List (DecorationRun (TextDecoration K))} {leading : Nat}
    {found : Option (TextDecoration K)}
    (sought : Sought runs leading found cursor.runEnd cursor.decorationRuns) (index : Nat) :
    Sought runs (max leading index) ((line.findRun cursor index).1.after found)
        (line.findRun cursor index).2.1 (line.findRun cursor index).2.2 ∧
      (line.findRun cursor index).1.after found = decorationAt runs (max leading index) := by
  rw [LineToPaint.findRun]
  generalize cursor.runEnd = runEnd at sought ⊢
  generalize cursor.decorationRuns = rest at sought ⊢
  cases sought with
  | fresh first =>
      rw [if_pos (Nat.zero_le index), first, Nat.zero_max]
      exact sought_seekRun line.layout.len [] rfl (Nat.zero_le index) found
  | @inRun passed rest run split from_ before isFound =>
      by_cases beyond : index ≥ runsLen passed + run.len.toNat
      · have next : runsLen (passed ++ [run]) = runsLen passed + run.len.toNat := by
          simp [runsLen]
        rw [if_pos beyond, max_eq_right (by omega), ← next]
        exact sought_seekRun line.layout.len (passed ++ [run]) (by simpa using split) (by omega) found
      · have within : max leading index < runsLen passed + run.len.toNat := by omega
        have reached : runsLen passed ≤ max leading index := by omega
        rw [if_neg beyond]
        constructor
        · exact .inRun split reached within isFound
        · rw [split, decorationAt_run reached within]
          exact isFound
  | exhausted beyond isFound =>
      have still : runsLen runs ≤ max leading index := beyond.trans (le_max_left _ _)
      have none_ : (if index ≥ runEnd then seekRun line.layout.len index runEnd []
          else (.inside, runEnd, [])).1.after found = none := by
        split
        · rfl
        · exact isFound
      constructor
      · rw [none_]
        split
        · exact .exhausted still rfl
        · exact .exhausted still rfl
      · rw [none_, decorationAt_of_le still]

variable {line}

/-- What is placed and found for a glyph. -/
theorem LineToPaint.next_eq_some {cursor following : LineCursor K} {entry : RunGlyph K}
    {mark : Mark K} (isNext : line.next cursor entry = some (mark, following)) :
    mark.glyph = entry.glyph ∧
      line.place cursor entry = some (mark.wrappedAt, mark.origin, following.wraps) ∧
      line.findRun cursor entry.glyph.index =
        (mark.change, following.runEnd, following.decorationRuns) ∧
      following.glyphOrigin = mark.origin ∧
      following.prevGlyphPosition = mark.glyph.position := by
  cases placed : line.place cursor entry with
  | none => simp [LineToPaint.next, placed] at isNext
  | some place =>
      simp only [LineToPaint.next, placed, Option.bind_eq_bind, Option.bind_some,
        Option.pure_def, Option.some.injEq, Prod.mk.injEq] at isNext
      rcases isNext with ⟨rfl, rfl⟩
      exact ⟨rfl, rfl, rfl, rfl, rfl⟩

/-- The decoration in force at a glyph is the one of the leading byte. -/
theorem foundAfter_of_readAll {runs : List (DecorationRun (TextDecoration K))}
    {entries : List (RunGlyph K)} {cursor last : LineCursor K} {marks : List (Mark K)}
    {leading : Nat} {found : Option (TextDecoration K)}
    (sought : Sought runs leading found cursor.runEnd cursor.decorationRuns)
    (read : readAll line.next cursor entries = some (marks, last))
    {before after : List (Mark K)} {mark : Mark K} (split : marks = before ++ mark :: after) :
    foundAfter found (before ++ [mark]) =
      decorationAt runs (leadingIndex leading (before ++ [mark])) := by
  induction entries generalizing cursor marks leading found before with
  | nil =>
      simp only [readAll, Option.some.injEq, Prod.mk.injEq] at read
      rw [← read.1] at split
      simp at split
  | cons entry entries ih =>
      rcases readAll_cons read with ⟨first, following, rest, isNext, readRest, rfl⟩
      rcases LineToPaint.next_eq_some isNext with ⟨isGlyph, -, isRun, -, -⟩
      have step := sought.findRun line entry.glyph.index
      rw [isRun, ← isGlyph] at step
      cases before with
      | nil =>
          rcases List.cons.inj split with ⟨rfl, -⟩
          exact step.2
      | cons other before =>
          rcases List.cons.inj split with ⟨rfl, splitRest⟩
          exact ih step.1 readRest splitRest

/-- A glyph is placed after the one before it, on the same row or on the next. -/
structure Mark.Follows (lineHeight : K) (first second : Mark K) : Prop where
  entered : second.enteredX =
    first.origin.x + (second.glyph.position.x - first.glyph.position.x)
  row : second.origin.y =
    if second.wrappedAt.isSome then first.origin.y + lineHeight else first.origin.y

theorem LineToPaint.place_eq_some {cursor : LineCursor K} {entry : RunGlyph K}
    {wrappedAt : Option K} {origin : Point K} {wraps : List WrapBoundary}
    (placed : line.place cursor entry = some (wrappedAt, origin, wraps)) :
    wrappedAt.getD origin.x =
        cursor.glyphOrigin.x + (entry.glyph.position.x - cursor.prevGlyphPosition.x) ∧
      origin.y = if wrappedAt.isSome then cursor.glyphOrigin.y + line.lineHeight
        else cursor.glyphOrigin.y := by
  rw [LineToPaint.place] at placed
  by_cases wraps_ : cursor.wraps.head? = some entry.boundary
  · rw [if_pos wraps_] at placed
    rcases Option.map_eq_some_iff.mp placed with ⟨rowX, -, isPlace⟩
    cases isPlace
    exact ⟨rfl, rfl⟩
  · rw [if_neg wraps_] at placed
    cases placed
    exact ⟨rfl, rfl⟩

theorem LineToPaint.isChain_follows {entries : List (RunGlyph K)}
    {cursor last : LineCursor K} {marks : List (Mark K)}
    (read : readAll line.next cursor entries = some (marks, last)) :
    marks.IsChain (Mark.Follows line.lineHeight) := by
  apply isChain_readAll (fun mark (cursor : LineCursor K) =>
    cursor.glyphOrigin = mark.origin ∧ cursor.prevGlyphPosition = mark.glyph.position)
    _ _ read
  · intro cursor entry mark following isNext
    exact (LineToPaint.next_eq_some isNext).2.2.2
  · rintro first cursor entry mark following ⟨isOrigin, isPosition⟩ isNext
    rcases LineToPaint.next_eq_some isNext with ⟨isGlyph, placed, -⟩
    rcases LineToPaint.place_eq_some placed with ⟨entered, row⟩
    rw [isOrigin, isPosition, ← isGlyph] at entered
    rw [isOrigin] at row
    exact ⟨entered, row⟩

end Marks

/-! ## What is to be covered -/

namespace StyleChange

variable {K S : Type} [Field K] {kind : SpanKind K S}

/-- A span of a style goes on at a glyph: its run is the same, or asks for the style as it
is painted. -/
def Continues (kind : SpanKind K S) (style : S) : StyleChange (TextDecoration K) → Prop
  | .inside => True
  | .run decoration => kind.asked decoration = some style
  | .exhausted => False

end StyleChange

namespace SpanKind

variable {K S : Type} [Field K] (kind : SpanKind K S)

/-- What is painted for a decoration. -/
def styleOf (found : Option (TextDecoration K)) : Option S :=
  found.bind fun decoration => (kind.asked decoration).map (kind.resolve decoration)

/-- What is to be painted for the run that has a byte. -/
def styleAt (runs : List (DecorationRun (TextDecoration K))) (index : Nat) : Option S :=
  kind.styleOf (decorationAt runs index)

/-- What a piece covers of its row. -/
def interval (piece : Piece K S) : RowInterval K S where
  row := piece.origin.y - kind.offset
  style := piece.style
  start := piece.origin.x
  stop := piece.origin.x + piece.width

variable {kind}

/-- What is painted stays as it is for every other run. -/
theorem resolve_of_styleOf {found : Option (TextDecoration K)} {style : S}
    (isStyle : kind.styleOf found = some style) (decoration : TextDecoration K) :
    kind.resolve decoration style = style := by
  rcases Option.bind_eq_some_iff.mp isStyle with ⟨other, -, asked⟩
  rcases Option.map_eq_some_iff.mp asked with ⟨raw, -, rfl⟩
  exact kind.resolve_resolve other decoration raw

/-- A span that goes on has the style of the run. -/
theorem styleOf_after_of_continues {found : Option (TextDecoration K)} {style : S}
    {change : StyleChange (TextDecoration K)} (isStyle : kind.styleOf found = some style)
    (continues : change.Continues kind style) :
    kind.styleOf (change.after found) = some style := by
  cases change with
  | inside => exact isStyle
  | run decoration =>
      have asks : kind.asked decoration = some style := continues
      have resolved := resolve_of_styleOf isStyle decoration
      simp only [StyleChange.after, styleOf, Option.bind_some, asks, Option.map_some, resolved]
  | exhausted => exact continues.elim

end SpanKind

namespace LineToPaint

variable {K S : Type} [Field K] (line : LineToPaint K)

/-- The glyphs, where they are placed. -/
def marks : Option (List (Mark K)) := do
  let cursor ← line.start
  let (marks, _) ← readAll line.next cursor line.layout.runGlyphs
  return marks

/-- Where a glyph ends: where the next would be, or the line ends. -/
def stopX (mark : Mark K) (next : Option (Mark K)) : K :=
  mark.origin.x +
    ((next.map fun next => next.glyph.position.x).getD line.layout.width -
      mark.glyph.position.x)

/-- What a glyph covers, if its run has a style. -/
def styledExtent (kind : SpanKind K S) (mark : Mark K) (next : Option (Mark K)) :
    List (RowInterval K S) :=
  ((kind.styleAt line.decorationRuns mark.glyph.index).map fun style =>
    ⟨mark.origin.y, style, mark.origin.x, line.stopX mark next⟩).toList

def styledExtents (kind : SpanKind K S) : List (Mark K) → List (RowInterval K S)
  | [] => []
  | mark :: marks => line.styledExtent kind mark marks.head? ++ styledExtents kind marks

variable [LinearOrder K]

/-- The pieces cover, row by row, the glyphs whose run has the style, and nothing else. -/
def CoversGlyphs (kind : SpanKind K S) (pieces : List (Piece K S)) : Prop :=
  ∃ marks, line.marks = some marks ∧
    SameCover (pieces.map kind.interval) (line.styledExtents kind marks)

end LineToPaint

namespace TextPaint

variable {K : Type}

def underline? : TextPaint K → Option (Piece K (UnderlineStyle K))
  | .underline piece => some piece
  | _ => none

def strikethrough? : TextPaint K → Option (Piece K (StrikethroughStyle K))
  | .strikethrough piece => some piece
  | _ => none

def background? : TextPaint K → Option (Piece K (Hsla K))
  | .quad bounds background => some ⟨bounds.origin, bounds.size.width, background⟩
  | _ => none

end TextPaint

namespace LineToPaint

variable {K S : Type} [Field K] [LinearOrder K] (line : LineToPaint K)

def UnderlinesCover : Prop :=
  ∃ painted, line.paintLine = some painted ∧
    line.CoversGlyphs line.underlineKind (painted.filterMap TextPaint.underline?)

def BackgroundsCover : Prop :=
  ∃ painted, line.paintLineBackground = some painted ∧
    line.CoversGlyphs backgroundKind (painted.filterMap TextPaint.background?)

/-! ## One kind of decoration by itself -/

variable [DecidableEq S] (kind : SpanKind K S)

/-- What a glyph does to the spans of one kind and to their pieces. -/
def track (state : Option (Span K S) × List (Piece K S)) (mark : Mark K) :
    Option (Span K S) × List (Piece K S) :=
  let (wrapped, arrived) := line.wrapSpan mark state.1
  let (finished, current) := kind.changeSpan mark arrived
  (current, state.2 ++ wrapped ++ kind.finishSpan line mark finished)

/-- All pieces of one kind, on a line that ends at an x. -/
def trackedPieces (marks : List (Mark K)) (lastLineEndX : K) : List (Piece K S) :=
  let (current, pieces) := marks.foldl (line.track kind) (none, [])
  pieces ++ closeSpan current lastLineEndX line.lastHalfGlyph

/-- `first_glyph_x`. -/
def firstGlyphX (marks : List (Mark K)) : K :=
  marks.foldl (fun x mark => if mark.boundary = ⟨0, 0⟩ then mark.enteredX else x)
    line.origin.x

omit [LinearOrder K] [DecidableEq S] in
theorem marks_eq_some {line : LineToPaint K} {marks : List (Mark K)}
    (isMarks : line.marks = some marks) :
    ∃ cursor last, line.start = some cursor ∧
      readAll line.next cursor line.layout.runGlyphs = some (marks, last) := by
  cases started : line.start with
  | none => simp [LineToPaint.marks, started] at isMarks
  | some cursor =>
      cases read : readAll line.next cursor line.layout.runGlyphs with
      | none => simp [LineToPaint.marks, started, read] at isMarks
      | some done =>
          simp only [LineToPaint.marks, started, read, Option.bind_eq_bind, Option.bind_some,
            Option.pure_def, Option.some.injEq] at isMarks
          exact ⟨cursor, done.2, rfl, by rw [read, ← isMarks]⟩

end LineToPaint

section Projections

variable {K : Type}

theorem filterMap_underlines (pieces : List (Piece K (UnderlineStyle K))) :
    (pieces.map TextPaint.underline).filterMap TextPaint.underline? = pieces := by
  rw [List.filterMap_map]
  exact List.filterMap_some

theorem filterMap_strikethroughs (pieces : List (Piece K (StrikethroughStyle K))) :
    (pieces.map TextPaint.strikethrough).filterMap TextPaint.strikethrough? = pieces := by
  rw [List.filterMap_map]
  exact List.filterMap_some

theorem filterMap_other_underline (pieces : List (Piece K (StrikethroughStyle K))) :
    (pieces.map TextPaint.strikethrough).filterMap TextPaint.underline? = [] := by
  rw [List.filterMap_map]
  exact List.filterMap_none pieces

theorem filterMap_other_strikethrough (pieces : List (Piece K (UnderlineStyle K))) :
    (pieces.map TextPaint.underline).filterMap TextPaint.strikethrough? = [] := by
  rw [List.filterMap_map]
  exact List.filterMap_none pieces

variable [Field K] [LinearOrder K] (line : LineToPaint K)

theorem filterMap_paintGlyph_underline (mark : Mark K) (color : Hsla K) :
    (line.paintGlyph mark color).filterMap TextPaint.underline? = [] := by
  simp only [LineToPaint.paintGlyph]
  split
  · split
    all_goals rfl
  · rfl

theorem filterMap_paintGlyph_strikethrough (mark : Mark K) (color : Hsla K) :
    (line.paintGlyph mark color).filterMap TextPaint.strikethrough? = [] := by
  simp only [LineToPaint.paintGlyph]
  split
  · split
    all_goals rfl
  · rfl

omit [Field K] [LinearOrder K] in
theorem filterMap_backgrounds (pieces : List (Piece K (Hsla K))) :
    (pieces.map line.backgroundQuad).filterMap TextPaint.background? = pieces := by
  rw [List.filterMap_map]
  exact List.filterMap_some

/-- What `paint_line` does to underlines. -/
theorem foldl_paintMark_underline (marks : List (Mark K)) (painter : LinePainter K) :
    ((marks.foldl line.paintMark painter).currentUnderline,
        (marks.foldl line.paintMark painter).painted.filterMap TextPaint.underline?) =
      marks.foldl (line.track line.underlineKind)
        (painter.currentUnderline, painter.painted.filterMap TextPaint.underline?) := by
  refine (List.foldl_hom (fun painter : LinePainter K =>
    (painter.currentUnderline, painter.painted.filterMap TextPaint.underline?)) ?_).symm
  intro painter mark
  simp only [LineToPaint.track, LineToPaint.paintMark, List.filterMap_append,
    filterMap_underlines, filterMap_other_underline, filterMap_paintGlyph_underline,
    List.append_nil]

theorem foldl_paintMark_strikethrough (marks : List (Mark K)) (painter : LinePainter K) :
    ((marks.foldl line.paintMark painter).currentStrikethrough,
        (marks.foldl line.paintMark painter).painted.filterMap TextPaint.strikethrough?) =
      marks.foldl (line.track line.strikethroughKind)
        (painter.currentStrikethrough,
          painter.painted.filterMap TextPaint.strikethrough?) := by
  refine (List.foldl_hom (fun painter : LinePainter K =>
    (painter.currentStrikethrough,
      painter.painted.filterMap TextPaint.strikethrough?)) ?_).symm
  intro painter mark
  simp only [LineToPaint.track, LineToPaint.paintMark, List.filterMap_append,
    filterMap_strikethroughs, filterMap_other_strikethrough,
    filterMap_paintGlyph_strikethrough, List.append_nil]

theorem foldl_paintBackgroundMark (marks : List (Mark K)) (painter : BackgroundPainter K) :
    ((marks.foldl line.paintBackgroundMark painter).currentBackground,
        (marks.foldl line.paintBackgroundMark painter).painted.filterMap
          TextPaint.background?) =
      marks.foldl (line.track LineToPaint.backgroundKind)
        (painter.currentBackground, painter.painted.filterMap TextPaint.background?) := by
  refine (List.foldl_hom (fun painter : BackgroundPainter K =>
    (painter.currentBackground, painter.painted.filterMap TextPaint.background?)) ?_).symm
  intro painter mark
  simp only [LineToPaint.track, LineToPaint.paintBackgroundMark, List.filterMap_append,
    filterMap_backgrounds]

theorem foldl_paintMark_firstGlyphX (marks : List (Mark K)) (painter : LinePainter K) :
    (marks.foldl line.paintMark painter).firstGlyphX =
      marks.foldl (fun x mark => if mark.boundary = ⟨0, 0⟩ then mark.enteredX else x)
        painter.firstGlyphX :=
  (List.foldl_hom LinePainter.firstGlyphX fun _ _ => rfl).symm

variable {line}

/-- The underlines, strikethroughs and backgrounds that are painted are the tracked ones. -/
theorem paintLine_eq {marks : List (Mark K)} (isMarks : line.marks = some marks)
    {lastLineEndX : K} (ends : line.lastLineEndX (line.firstGlyphX marks) = some lastLineEndX) :
    ∃ painted, line.paintLine = some painted ∧
      painted.filterMap TextPaint.underline? =
        line.trackedPieces line.underlineKind marks lastLineEndX ∧
      painted.filterMap TextPaint.strikethrough? =
        line.trackedPieces line.strikethroughKind marks lastLineEndX := by
  rcases LineToPaint.marks_eq_some isMarks with ⟨cursor, last, started, read⟩
  let new : LinePainter K := ⟨⟨0, 0, 0, 1⟩, none, none, line.origin.x, []⟩
  have underlines := foldl_paintMark_underline line marks new
  have strikethroughs := foldl_paintMark_strikethrough line marks new
  have first : (marks.foldl line.paintMark new).firstGlyphX = line.firstGlyphX marks :=
    foldl_paintMark_firstGlyphX line marks new
  have isPainted : line.paintLine = some (
      (marks.foldl line.paintMark new).painted ++
        (closeSpan (marks.foldl line.paintMark new).currentUnderline lastLineEndX
          line.lastHalfGlyph).map .underline ++
        (closeSpan (marks.foldl line.paintMark new).currentStrikethrough lastLineEndX
          line.lastHalfGlyph).map .strikethrough) := by
    simp only [LineToPaint.paintLine, started, Option.bind_eq_bind, Option.bind_some,
      foldlM_readThenWrite, read, Option.map_some, Option.pure_def]
    change (line.lastLineEndX (marks.foldl line.paintMark new).firstGlyphX).bind _ = _
    rw [first, ends]
    rfl
  refine ⟨_, isPainted, ?_, ?_⟩
  · rw [List.filterMap_append, List.filterMap_append, filterMap_underlines,
      filterMap_other_underline, List.append_nil, LineToPaint.trackedPieces]
    exact congrArg (fun state => state.2 ++
      closeSpan state.1 lastLineEndX line.lastHalfGlyph) underlines
  · rw [List.filterMap_append, List.filterMap_append, filterMap_strikethroughs,
      filterMap_other_strikethrough, List.append_nil, LineToPaint.trackedPieces]
    exact congrArg (fun state => state.2 ++
      closeSpan state.1 lastLineEndX line.lastHalfGlyph) strikethroughs

theorem paintLineBackground_eq {marks : List (Mark K)} (isMarks : line.marks = some marks)
    {lastLineEndX : K} (ends : line.lastLineEndX line.origin.x = some lastLineEndX) :
    ∃ painted, line.paintLineBackground = some painted ∧
      painted.filterMap TextPaint.background? =
        line.trackedPieces LineToPaint.backgroundKind marks lastLineEndX := by
  rcases LineToPaint.marks_eq_some isMarks with ⟨cursor, last, started, read⟩
  let new : BackgroundPainter K := ⟨none, []⟩
  have backgrounds := foldl_paintBackgroundMark line marks new
  have isPainted : line.paintLineBackground = some (
      (marks.foldl line.paintBackgroundMark new).painted ++
        (closeSpan (marks.foldl line.paintBackgroundMark new).currentBackground lastLineEndX
          line.lastHalfGlyph).map line.backgroundQuad) := by
    simp only [LineToPaint.paintLineBackground, started, Option.bind_eq_bind,
      Option.bind_some, foldlM_readThenWrite, read, Option.map_some, Option.pure_def, ends,
      new]
  refine ⟨_, isPainted, ?_⟩
  rw [List.filterMap_append, filterMap_backgrounds, LineToPaint.trackedPieces]
  exact congrArg (fun state => state.2 ++
    closeSpan state.1 lastLineEndX line.lastHalfGlyph) backgrounds

end Projections

end Gpui
