import Gpui.TextSystem.DecorationSpans

/-!
# Decorations cover their glyphs

Rows that are aligned away from the origin of the line are the ones where decorations fail
to cover their glyphs: a span that goes on after a wrap begins at the origin, and the end of
the last row does not follow its alignment.  Where neither comes to bear, each span covers
the glyphs from the one it began at to the one it ends at.

The invariant of the loop is that the pieces, with the span that goes on up to the glyph at
hand, cover the glyphs before it.
-/

namespace Gpui

open Library

variable {K S : Type} [Field K] [LinearOrder K]

namespace LineToPaint

variable (line : LineToPaint K)

/-- A span of the style has begun on a glyph before the last, on its row. -/
def GoesOnto (kind : SpanKind K S) (before : List (Mark K)) (last : Mark K) : Prop :=
  ∃ earlier first style, before = earlier ++ [first] ∧ last.wrappedAt = none ∧
    kind.styleAt line.decorationRuns first.glyph.index = some style ∧
    last.change.Continues kind style

/-- Where decorations of a kind stay with their glyphs, on a line that ends at an x. -/
structure InPlace (kind : SpanKind K S) (lastLineEndX : Option K) (marks : List (Mark K)) :
    Prop where
  /-- The style runs do not fall behind the glyphs. -/
  inOrder : ∀ before mark after, marks = before ++ mark :: after →
    kind.styleAt line.decorationRuns mark.glyph.index =
      kind.styleAt line.decorationRuns (leadingIndex 0 (before ++ [mark]))
  /-- A span that goes on to another row finds the row at the origin, and nothing is left of
  a span that ends there. -/
  wraps : ∀ before first second after, marks = before ++ first :: second :: after →
    second.wrappedAt.isSome →
    ∀ style, kind.styleAt line.decorationRuns first.glyph.index = some style →
      (second.change.Continues kind style → second.origin.x = line.origin.x) ∧
      (¬ second.change.Continues kind style →
        (kind.finish ⟨⟨line.origin.x, second.origin.y + kind.offset⟩, style⟩
          second.origin.x (line.halfGlyph second.fontId)).width ≤ 0)
  /-- The line ends where its last glyph does, which has a width. -/
  ends : ∀ before last, marks = before ++ [last] →
    (kind.styleAt line.decorationRuns last.glyph.index).isSome →
      lastLineEndX = some (line.stopX last none) ∧
      last.origin.x ≤ line.stopX last none ∧
      (last.origin.x = line.stopX last none →
        line.lastHalfGlyph ≤ 0 ∨ line.GoesOnto kind before last)

/-- The positions of the glyphs increase. -/
def Increasing : Prop :=
  (line.layout.runGlyphs.map fun entry => entry.glyph.position.x).Pairwise (· < ·)

/-- There is a glyph at each wrap boundary. -/
def WrapsAtGlyphs : Prop :=
  ∀ boundary ∈ line.wrapBoundaries, (line.layout.glyphAt boundary).isSome

end LineToPaint

/-! ## One glyph after another -/

namespace SpanKind

variable (kind : SpanKind K S)

/-- A span up to an x, on the row of a glyph. -/
def upTo (mark : Mark K) (span : Span K S) (x : K) : RowInterval K S :=
  ⟨mark.origin.y, span.style, span.origin.x, x⟩

/-- What holds of the span that goes on and of the pieces when `covered` stands before a
glyph and its own run has been found. -/
structure Tracked (covered : List (RowInterval K S)) (mark : Mark K)
    (found : Option (TextDecoration K)) (current : Option (Span K S))
    (pieces : List (Piece K S)) : Prop where
  style_eq : current.map Span.style = kind.styleOf found
  row_eq : ∀ span, current = some span → span.origin.y = mark.origin.y + kind.offset
  start_le : ∀ span, current = some span → span.origin.x ≤ mark.origin.x
  idle : current = none → SameCover (pieces.map kind.interval) covered
  covers : ∀ span, current = some span →
    SameCover (pieces.map kind.interval ++ [upTo mark span mark.origin.x]) covered

/-- The same before the run of the glyph is found. -/
structure Arrived (line : LineToPaint K) (covered : List (RowInterval K S)) (mark : Mark K)
    (found : Option (TextDecoration K)) (current : Option (Span K S))
    (pieces : List (Piece K S)) : Prop where
  style_eq : current.map Span.style = kind.styleOf found
  row_eq : ∀ span, current = some span → span.origin.y = mark.origin.y + kind.offset
  idle : current = none → SameCover (pieces.map kind.interval) covered
  kept : ∀ span, current = some span → mark.change.Continues kind span.style →
    span.origin.x ≤ mark.origin.x ∧
      SameCover (pieces.map kind.interval ++ [upTo mark span mark.origin.x]) covered
  ended : ∀ span, current = some span → ¬ mark.change.Continues kind span.style →
    SameCover (pieces.map kind.interval ++
      [kind.interval (kind.finish span mark.origin.x (line.halfGlyph mark.fontId))]) covered

variable {kind} {line : LineToPaint K} {covered : List (RowInterval K S)} {mark : Mark K}
  {found : Option (TextDecoration K)} {current : Option (Span K S)}
  {pieces : List (Piece K S)}

theorem Tracked.styleOf_eq (tracked : kind.Tracked covered mark found current pieces)
    {span : Span K S} (isCurrent : current = some span) :
    kind.styleOf found = some span.style := by
  rw [← tracked.style_eq, isCurrent]
  rfl

theorem Arrived.styleOf_eq (arrived : kind.Arrived line covered mark found current pieces)
    {span : Span K S} (isCurrent : current = some span) :
    kind.styleOf found = some span.style := by
  rw [← arrived.style_eq, isCurrent]
  rfl

/-- The span that a run begins covers nothing yet. -/
theorem tracked_begin {decoration : TextDecoration K}
    (same : SameCover (pieces.map kind.interval) covered) :
    kind.Tracked covered mark (some decoration) (kind.begin mark.origin decoration)
      pieces where
  style_eq := by
    simp only [SpanKind.begin, styleOf, Option.bind_some, Option.map_map]
    rfl
  row_eq := by
    intro span isSpan
    rcases Option.map_eq_some_iff.mp isSpan with ⟨style, -, rfl⟩
    rfl
  start_le := by
    intro span isSpan
    rcases Option.map_eq_some_iff.mp isSpan with ⟨style, -, rfl⟩
    exact le_refl _
  idle := fun _ => same
  covers := by
    intro span isSpan
    rcases Option.map_eq_some_iff.mp isSpan with ⟨style, -, rfl⟩
    exact same.append_empty (le_refl _)

theorem tracked_none (same : SameCover (pieces.map kind.interval) covered)
    (noStyle : kind.styleOf found = none) : kind.Tracked covered mark found none pieces where
  style_eq := noStyle.symm
  row_eq := by
    intro span isSpan
    cases isSpan
  start_le := by
    intro span isSpan
    cases isSpan
  idle := fun _ => same
  covers := by
    intro span isSpan
    cases isSpan

theorem Arrived.tracked_of_continues
    (arrived : kind.Arrived line covered mark found current pieces) {span : Span K S}
    (isCurrent : current = some span) (continues : mark.change.Continues kind span.style) :
    kind.Tracked covered mark (mark.change.after found) (some span) pieces where
  style_eq := (styleOf_after_of_continues (arrived.styleOf_eq isCurrent) continues).symm
  row_eq := fun other isOther => arrived.row_eq other (isCurrent.trans isOther)
  start_le := by
    rintro other ⟨⟩
    exact (arrived.kept span isCurrent continues).1
  idle := fun isNone => by cases isNone
  covers := by
    rintro other ⟨⟩
    exact (arrived.kept span isCurrent continues).2

theorem Arrived.covers_finished [DecidableEq S]
    (arrived : kind.Arrived line covered mark found current pieces) {span : Span K S}
    (isCurrent : current = some span) (ends : ¬ mark.change.Continues kind span.style) :
    SameCover ((pieces ++ kind.finishSpan line mark (some span)).map kind.interval)
      covered := by
  rw [List.map_append]
  exact arrived.ended span isCurrent ends

omit [LinearOrder K] in
theorem changeSpan_of_continues [DecidableEq S] {span : Span K S}
    (continues : mark.change.Continues kind span.style) :
    kind.changeSpan mark (some span) = (none, some span) := by
  cases changed : mark.change with
  | inside => simp only [SpanKind.changeSpan, changed]
  | exhausted =>
      rw [changed] at continues
      exact continues.elim
  | run decoration =>
      rw [changed] at continues
      have asks : kind.asked decoration = some span.style := continues
      simp only [SpanKind.changeSpan, changed, asks, if_true]

/-- The run of a glyph finishes the span that goes on, or has it go on. -/
theorem Arrived.changeSpan [DecidableEq S]
    (arrived : kind.Arrived line covered mark found current pieces) :
    kind.Tracked covered mark (mark.change.after found) (kind.changeSpan mark current).2
      (pieces ++ kind.finishSpan line mark (kind.changeSpan mark current).1) := by
  cases current with
  | none =>
      have same := arrived.idle rfl
      have noStyle : kind.styleOf found = none := arrived.style_eq.symm
      cases changed : mark.change with
      | inside =>
          simp only [SpanKind.changeSpan, changed, finishSpan, Option.map_none,
            Option.toList_none, List.append_nil, StyleChange.after]
          exact tracked_none same noStyle
      | exhausted =>
          simp only [SpanKind.changeSpan, changed, finishSpan, Option.map_none,
            Option.toList_none, List.append_nil, StyleChange.after]
          exact tracked_none same rfl
      | run decoration =>
          simp only [SpanKind.changeSpan, changed, finishSpan, Option.map_none,
            Option.toList_none, List.append_nil, StyleChange.after]
          exact tracked_begin same
  | some span =>
      by_cases continues : mark.change.Continues kind span.style
      · rw [changeSpan_of_continues continues]
        simp only [finishSpan, Option.map_none, Option.toList_none, List.append_nil]
        exact arrived.tracked_of_continues rfl continues
      · have same := arrived.covers_finished rfl continues
        cases changed : mark.change with
        | inside =>
            rw [changed] at continues
            exact absurd trivial continues
        | exhausted =>
            simp only [SpanKind.changeSpan, changed, StyleChange.after]
            exact tracked_none same rfl
        | run decoration =>
            rw [changed] at continues
            have asksOther : kind.asked decoration ≠ some span.style := continues
            simp only [SpanKind.changeSpan, changed, if_neg asksOther, StyleChange.after]
            exact tracked_begin same

omit [LinearOrder K] in
/-- What a glyph with a span covers. -/
theorem styledExtent_of_some {first : Mark K} {next : Option (Mark K)} {style : S}
    (isStyle : kind.styleAt line.decorationRuns first.glyph.index = some style) :
    line.styledExtent kind first next =
      [⟨first.origin.y, style, first.origin.x, line.stopX first next⟩] := by
  rw [LineToPaint.styledExtent, isStyle]
  rfl

omit [LinearOrder K] in
theorem styledExtent_of_none {first : Mark K} {next : Option (Mark K)}
    (noStyle : kind.styleAt line.decorationRuns first.glyph.index = none) :
    line.styledExtent kind first next = [] := by
  rw [LineToPaint.styledExtent, noStyle]
  rfl

variable [IsStrictOrderedRing K] {first second : Mark K}

omit [LinearOrder K] [IsStrictOrderedRing K] in
/-- A piece as wide as its span covers what the span does. -/
theorem interval_of_wide {span : Span K S} (x : K)
    (row : span.origin.y = mark.origin.y + kind.offset) :
    kind.interval ⟨span.origin, x - span.origin.x, span.style⟩ = upTo mark span x := by
  simp only [interval, upTo, row, add_sub_cancel_right, add_sub_cancel]

/-- Where the next glyph of a row is placed. -/
theorem arrived_on_row (tracked : kind.Tracked covered first found current pieces)
    (own : kind.styleAt line.decorationRuns first.glyph.index = kind.styleOf found)
    (follows : Mark.Follows line.lineHeight first second)
    (increasing : first.glyph.position.x < second.glyph.position.x)
    (onRow : second.wrappedAt = none) :
    kind.Arrived line (covered ++ line.styledExtent kind first (some second)) second found
      current pieces := by
  have row : second.origin.y = first.origin.y := by
    simpa [onRow] using follows.row
  have stop : second.origin.x = line.stopX first (some second) := by
    simpa [Mark.enteredX, onRow, LineToPaint.stopX] using follows.entered
  have after : first.origin.x < second.origin.x := by
    rw [stop]
    simp only [LineToPaint.stopX, Option.map_some, Option.getD_some]
    linarith
  have coversUpTo : ∀ span, current = some span →
      SameCover (pieces.map kind.interval ++ [upTo second span second.origin.x])
        (covered ++ line.styledExtent kind first (some second)) := by
    intro span isCurrent
    have extended := (tracked.covers span isCurrent).extend (tracked.start_le span isCurrent)
      (le_of_lt after)
    rw [styledExtent_of_some (own.trans (tracked.styleOf_eq isCurrent)), ← stop]
    rw [upTo, row]
    exact extended
  have rowSpan : ∀ span, current = some span →
      span.origin.y = second.origin.y + kind.offset := by
    intro span isCurrent
    rw [row]
    exact tracked.row_eq span isCurrent
  constructor
  case style_eq => exact tracked.style_eq
  case row_eq => exact rowSpan
  case idle =>
    intro isNone
    have noStyle : kind.styleOf found = none := by
      rw [← tracked.style_eq, isNone]
      rfl
    rw [styledExtent_of_none (own.trans noStyle), List.append_nil]
    exact tracked.idle isNone
  case kept =>
    intro span isCurrent _
    exact ⟨(tracked.start_le span isCurrent).trans (le_of_lt after), coversUpTo span isCurrent⟩
  case ended =>
    intro span isCurrent _
    have wide : span.origin.x ≠ second.origin.x :=
      ne_of_lt (lt_of_le_of_lt (tracked.start_le span isCurrent) after)
    rw [kind.finish_of_ne span _ _ wide, interval_of_wide _ (rowSpan span isCurrent)]
    exact coversUpTo span isCurrent

/-- Where the first glyph of the next row is placed. -/
theorem arrived_wrapped [DecidableEq S]
    (tracked : kind.Tracked covered first found current pieces)
    (own : kind.styleAt line.decorationRuns first.glyph.index = kind.styleOf found)
    (follows : Mark.Follows line.lineHeight first second)
    (increasing : first.glyph.position.x < second.glyph.position.x)
    (wrapped : second.wrappedAt.isSome)
    (stays : ∀ style, kind.styleAt line.decorationRuns first.glyph.index = some style →
      (second.change.Continues kind style → second.origin.x = line.origin.x) ∧
      (¬ second.change.Continues kind style →
        (kind.finish ⟨⟨line.origin.x, second.origin.y + kind.offset⟩, style⟩
          second.origin.x (line.halfGlyph second.fontId)).width ≤ 0)) :
    kind.Arrived line (covered ++ line.styledExtent kind first (some second)) second found
      (line.wrapSpan second current).2 (pieces ++ (line.wrapSpan second current).1) := by
  obtain ⟨x, isWrapped⟩ := Option.isSome_iff_exists.mp wrapped
  have row : second.origin.y = first.origin.y + line.lineHeight := by
    simpa [isWrapped] using follows.row
  have stop : x = line.stopX first (some second) := by
    simpa [Mark.enteredX, isWrapped, LineToPaint.stopX] using follows.entered
  have after : first.origin.x < x := by
    rw [stop]
    simp only [LineToPaint.stopX, Option.map_some, Option.getD_some]
    linarith
  cases current with
  | none =>
      have noStyle : kind.styleOf found = none := tracked.style_eq.symm
      simp only [LineToPaint.wrapSpan, isWrapped, List.append_nil]
      rw [styledExtent_of_none (own.trans noStyle), List.append_nil]
      constructor
      case style_eq => exact tracked.style_eq
      case idle => exact fun _ => tracked.idle rfl
      all_goals
        intro span isSpan
        cases isSpan
  | some span =>
      have isStyle := own.trans (tracked.styleOf_eq rfl)
      have wide : span.origin.x ≠ x :=
        ne_of_lt (lt_of_le_of_lt (tracked.start_le span rfl) after)
      have painted : SameCover
          ((pieces ++ [span.pieceUpTo x (line.halfGlyph second.fontId)]).map kind.interval)
          (covered ++ line.styledExtent kind first (some second)) := by
        rw [List.map_append, List.map_singleton, span.pieceUpTo_of_ne _ wide,
          interval_of_wide _ (tracked.row_eq span rfl), styledExtent_of_some isStyle, ← stop]
        exact (tracked.covers span rfl).extend (tracked.start_le span rfl) (le_of_lt after)
      have nextRow : span.origin.y + line.lineHeight = second.origin.y + kind.offset := by
        rw [tracked.row_eq span rfl, row]
        ring
      rcases stays span.style isStyle with ⟨atOrigin, leftover⟩
      simp only [LineToPaint.wrapSpan, isWrapped]
      constructor
      case style_eq => exact tracked.style_eq
      case row_eq =>
        rintro other ⟨⟩
        exact nextRow
      case idle =>
        intro isNone
        cases isNone
      case kept =>
        rintro other ⟨⟩ continues
        have origin_eq := atOrigin continues
        exact ⟨le_of_eq origin_eq.symm, painted.append_empty (le_of_eq origin_eq)⟩
      case ended =>
        rintro other ⟨⟩ ends
        have noWidth := leftover ends
        apply painted.append_empty
        rw [nextRow]
        simp only [interval]
        linarith

/-- One glyph after another. -/
theorem Tracked.step [DecidableEq S]
    (tracked : kind.Tracked covered first found current pieces)
    (own : kind.styleAt line.decorationRuns first.glyph.index = kind.styleOf found)
    (follows : Mark.Follows line.lineHeight first second)
    (increasing : first.glyph.position.x < second.glyph.position.x)
    (stays : second.wrappedAt.isSome →
      ∀ style, kind.styleAt line.decorationRuns first.glyph.index = some style →
        (second.change.Continues kind style → second.origin.x = line.origin.x) ∧
        (¬ second.change.Continues kind style →
          (kind.finish ⟨⟨line.origin.x, second.origin.y + kind.offset⟩, style⟩
            second.origin.x (line.halfGlyph second.fontId)).width ≤ 0)) :
    kind.Tracked (covered ++ line.styledExtent kind first (some second)) second
      (second.change.after found) (line.track kind (current, pieces) second).1
      (line.track kind (current, pieces) second).2 := by
  cases onRow : second.wrappedAt with
  | none =>
      have arrived := arrived_on_row tracked own follows increasing onRow
      have notWrapped : line.wrapSpan second current = ([], current) := by
        simp only [LineToPaint.wrapSpan, onRow]
      simp only [LineToPaint.track, notWrapped, List.append_nil]
      exact arrived.changeSpan
  | some x =>
      have wrapped : second.wrappedAt.isSome := by
        rw [onRow]
        rfl
      exact (arrived_wrapped tracked own follows increasing wrapped (stays wrapped)).changeSpan

/-- A span that went on from the glyph before has a width. -/
theorem Tracked.lt_of_goesOnto [DecidableEq S]
    (tracked : kind.Tracked covered first found current pieces)
    (own : kind.styleAt line.decorationRuns first.glyph.index = kind.styleOf found)
    (follows : Mark.Follows line.lineHeight first second)
    (increasing : first.glyph.position.x < second.glyph.position.x) {front : List (Mark K)}
    (goesOnto : line.GoesOnto kind (front ++ [first]) second) {span : Span K S}
    (isCurrent : (line.track kind (current, pieces) second).1 = some span) :
    span.origin.x < second.origin.x := by
  rcases goesOnto with ⟨earlier, before, style, isBefore, onRow, isStyle, continues⟩
  rcases (List.append_singleton_inj.mp isBefore).2 with rfl
  have notWrapped : line.wrapSpan second current = ([], current) := by
    simp only [LineToPaint.wrapSpan, onRow]
  have styled := tracked.style_eq.trans (own.symm.trans isStyle)
  rcases Option.map_eq_some_iff.mp styled with ⟨was, isWas, rfl⟩
  have goesOn := changeSpan_of_continues continues
  simp only [LineToPaint.track, notWrapped] at isCurrent
  rw [isWas, goesOn] at isCurrent
  rcases Option.some.inj isCurrent with rfl
  have entered := follows.entered
  simp only [Mark.enteredX, onRow, Option.getD_none] at entered
  have begun := tracked.start_le was isWas
  linarith

/-- The end of the line, after its last glyph. -/
theorem Tracked.close (tracked : kind.Tracked covered mark found current pieces)
    (own : kind.styleAt line.decorationRuns mark.glyph.index = kind.styleOf found)
    {lastLineEndX : K} (ends :
      (kind.styleAt line.decorationRuns mark.glyph.index).isSome →
        lastLineEndX = line.stopX mark none ∧ mark.origin.x ≤ line.stopX mark none)
    (wide : ∀ span, current = some span → mark.origin.x = line.stopX mark none →
      line.lastHalfGlyph ≤ 0 ∨ span.origin.x < mark.origin.x) :
    SameCover ((pieces ++ closeSpan current lastLineEndX line.lastHalfGlyph).map kind.interval)
      (covered ++ line.styledExtent kind mark none) := by
  cases current with
  | none =>
      have noStyle : kind.styleOf found = none := tracked.style_eq.symm
      rw [styledExtent_of_none (own.trans noStyle), List.append_nil]
      simp only [closeSpan, Option.map_none, Option.toList_none, List.append_nil]
      exact tracked.idle rfl
  | some span =>
      have isStyle := own.trans (tracked.styleOf_eq rfl)
      have started := tracked.start_le span rfl
      rcases ends (by rw [isStyle]; rfl) with ⟨rfl, reached⟩
      rw [styledExtent_of_some isStyle, List.map_append]
      by_cases noWidth : span.origin.x = line.stopX mark none
      · have stops : mark.origin.x = line.stopX mark none :=
          le_antisymm reached (noWidth ▸ started)
        have noHalf : line.lastHalfGlyph ≤ 0 := by
          rcases wide span rfl stops with noHalf | begun
          · exact noHalf
          · exact absurd (noWidth.trans stops.symm) (ne_of_lt begun)
        have begun := (tracked.covers span rfl).of_append_empty (by
          rw [upTo, noWidth, ← stops])
        apply begun.append_empties
        · simp only [interval, Span.pieceUpTo, noWidth, if_true]
          linarith
        · exact le_of_eq stops.symm
      · have painted := (tracked.covers span rfl).extend started reached
        simp only [closeSpan, Option.map_some, Option.toList_some, List.map_singleton,
          span.pieceUpTo_of_ne _ noWidth, interval_of_wide _ (tracked.row_eq span rfl)]
        exact painted

/-! ## The whole line -/

/-- What holds of the glyphs of a line. -/
structure Laid (line : LineToPaint K) (kind : SpanKind K S) (marks : List (Mark K)) : Prop where
  follows : marks.IsChain (Mark.Follows line.lineHeight)
  increasing : (marks.map fun mark => mark.glyph.position.x).Pairwise (· < ·)
  own : ∀ before mark after, marks = before ++ mark :: after →
    kind.styleAt line.decorationRuns mark.glyph.index =
      kind.styleOf (foundAfter none (before ++ [mark]))

omit [IsStrictOrderedRing K] in
theorem Laid.step {marks front rest : List (Mark K)} (laid : Laid line kind marks)
    (split : marks = front ++ first :: second :: rest) :
    Mark.Follows line.lineHeight first second ∧
      first.glyph.position.x < second.glyph.position.x := by
  constructor
  · exact List.isChain_iff_forall_rel_of_append_cons_cons.mp laid.follows split
  · have increasing := laid.increasing
    rw [split, List.map_append, List.pairwise_append, List.map_cons,
      List.pairwise_cons] at increasing
    exact increasing.2.1.1 _ (List.mem_map_of_mem List.mem_cons_self)

/-- From a glyph on to the end of the line. -/
theorem Tracked.run [DecidableEq S] {marks : List (Mark K)} (laid : Laid line kind marks)
    {lastLineEndX : K} (inPlace : line.InPlace kind (some lastLineEndX) marks)
    (front : List (Mark K)) {rest : List (Mark K)} (split : marks = front ++ mark :: rest)
    (tracked : kind.Tracked covered mark (foundAfter none (front ++ [mark])) current pieces)
    (wide : ∀ span, current = some span → line.GoesOnto kind front mark →
      span.origin.x < mark.origin.x) :
    SameCover
      (((rest.foldl (line.track kind) (current, pieces)).2 ++
        closeSpan (rest.foldl (line.track kind) (current, pieces)).1 lastLineEndX
          line.lastHalfGlyph).map kind.interval)
      (covered ++ line.styledExtents kind (mark :: rest)) := by
  have own := laid.own front mark rest split
  induction rest generalizing covered front mark current pieces with
  | nil =>
      rw [LineToPaint.styledExtents, LineToPaint.styledExtents, List.append_nil]
      apply tracked.close own
      · intro isStyled
        rcases inPlace.ends front mark split isStyled with ⟨ends, reached, -⟩
        exact ⟨Option.some.inj ends, reached⟩
      · intro span isCurrent stops
        have isStyled : (kind.styleAt line.decorationRuns mark.glyph.index).isSome := by
          rw [own, tracked.styleOf_eq isCurrent]
          rfl
        rcases (inPlace.ends front mark split isStyled).2.2 stops with noHalf | goesOnto
        · exact Or.inl noHalf
        · exact Or.inr (wide span isCurrent goesOnto)
  | cons second rest ih =>
      rcases laid.step split with ⟨follows, increasing⟩
      have splitNext : marks = (front ++ [mark]) ++ second :: rest := by
        rw [split, List.append_assoc]
        rfl
      have step := tracked.step own follows increasing
        (inPlace.wraps front mark second rest split)
      have found : second.change.after (foundAfter none (front ++ [mark])) =
          foundAfter none (front ++ [mark] ++ [second]) := by
        simp only [foundAfter, List.foldl_append, List.foldl_cons, List.foldl_nil]
      rw [found] at step
      have goesOn := ih (front ++ [mark]) splitNext step
        (fun span isCurrent goesOnto =>
          tracked.lt_of_goesOnto own follows increasing goesOnto isCurrent)
        (laid.own _ second rest splitNext)
      rw [List.append_assoc] at goesOn
      exact goesOn

omit [IsStrictOrderedRing K] in
/-- The first glyph. -/
theorem tracked_first [DecidableEq S] (first : Mark K) :
    kind.Tracked [] first (first.change.after none) (line.track kind (none, []) first).1
      (line.track kind (none, []) first).2 := by
  have arrived : kind.Arrived line [] first none none [] := by
    constructor
    case style_eq => rfl
    case idle => exact fun _ => SameCover.refl []
    all_goals
      intro span isSpan
      cases isSpan
  have notWrapped : line.wrapSpan first (none : Option (Span K S)) = ([], none) := by
    cases wrapped : first.wrappedAt with
    | none => simp only [LineToPaint.wrapSpan, wrapped]
    | some x => simp only [LineToPaint.wrapSpan, wrapped]
  simp only [LineToPaint.track, notWrapped, List.append_nil]
  exact arrived.changeSpan

/-- What is tracked covers the glyphs. -/
theorem covers_trackedPieces [DecidableEq S] {marks : List (Mark K)}
    (laid : Laid line kind marks) {lastLineEndX : K}
    (inPlace : line.InPlace kind (some lastLineEndX) marks) :
    SameCover ((line.trackedPieces kind marks lastLineEndX).map kind.interval)
      (line.styledExtents kind marks) := by
  cases marks with
  | nil => exact SameCover.refl []
  | cons first rest =>
      apply Tracked.run laid inPlace [] rfl (tracked_first first)
      rintro span - ⟨earlier, before, style, isBefore, -⟩
      simp at isBefore

end SpanKind

namespace LineToPaint

variable {line : LineToPaint K}

omit [LinearOrder K] in
theorem exists_rowOriginX (wraps : ∀ boundary ∈ line.wrapBoundaries,
      (line.layout.glyphAt boundary).isSome) (lastGlyphX : K)
    {wrapBoundary : Option WrapBoundary}
    (among : ∀ boundary, wrapBoundary = some boundary → boundary ∈ line.wrapBoundaries) :
    ∃ x, line.rowOriginX lastGlyphX wrapBoundary = some x := by
  rw [← Option.isSome_iff_exists]
  cases wrapBoundary with
  | none => rfl
  | some boundary =>
      obtain ⟨glyph, isGlyph⟩ := Option.isSome_iff_exists.mp (wraps boundary (among _ rfl))
      rw [rowOriginX, alignedOriginX, isGlyph]
      rfl

omit [LinearOrder K] in
/-- The glyphs can be placed. -/
theorem exists_marks (wraps : line.WrapsAtGlyphs) : ∃ marks, line.marks = some marks := by
  have heads : ∀ boundaries : List WrapBoundary, boundaries ⊆ line.wrapBoundaries →
      ∀ boundary, boundaries.head? = some boundary → boundary ∈ line.wrapBoundaries :=
    fun boundaries among boundary isHead => among (List.mem_of_head? isHead)
  rcases exists_rowOriginX wraps 0 (heads line.wrapBoundaries (fun _ member => member)) with
    ⟨x, found⟩
  let starting : LineCursor K :=
    ⟨⟨x, line.origin.y⟩, ⟨0, 0⟩, line.wrapBoundaries, 0, line.decorationRuns⟩
  have started : line.start = some starting := by
    simp only [start, found, Option.bind_eq_bind, Option.bind_some, Option.pure_def, starting]
  have places : ∀ (cursor : LineCursor K) (entry : RunGlyph K),
      cursor.wraps ⊆ line.wrapBoundaries →
        ∃ wrappedAt origin wraps, line.place cursor entry = some (wrappedAt, origin, wraps) ∧
          wraps ⊆ line.wrapBoundaries := by
    intro cursor entry among
    by_cases wrapped : cursor.wraps.head? = some entry.boundary
    · have tail : cursor.wraps.tail ⊆ line.wrapBoundaries :=
        fun boundary member => among (List.mem_of_mem_tail member)
      rcases exists_rowOriginX wraps entry.glyph.position.x (heads _ tail) with ⟨rowX, row⟩
      exact ⟨_, _, _, by rw [place, if_pos wrapped, row, Option.map_some], tail⟩
    · exact ⟨_, _, _, by rw [place, if_neg wrapped], among⟩
  have reads : ∀ (cursor : LineCursor K) (entry : RunGlyph K),
      cursor.wraps ⊆ line.wrapBoundaries →
        ∃ mark following, line.next cursor entry = some (mark, following) ∧
          following.wraps ⊆ line.wrapBoundaries := by
    intro cursor entry among
    rcases places cursor entry among with ⟨wrappedAt, origin, rest, placed, amongRest⟩
    rw [next, placed]
    exact ⟨_, _, rfl, amongRest⟩
  have starts : starting.wraps ⊆ line.wrapBoundaries := fun _ member => member
  rcases exists_readAll _ reads starts line.layout.runGlyphs with ⟨marks, last, read⟩
  refine ⟨marks, ?_⟩
  simp only [LineToPaint.marks, started, read, Option.bind_eq_bind, Option.bind_some,
    Option.pure_def]

omit [LinearOrder K] in
theorem exists_lastLineEndX (wraps : ∀ boundary ∈ line.wrapBoundaries,
      (line.layout.glyphAt boundary).isSome) (x : K) :
    ∃ lastLineEndX, line.lastLineEndX x = some lastLineEndX := by
  rw [← Option.isSome_iff_exists]
  cases isLast : line.wrapBoundaries.getLast? with
  | none => simp only [lastLineEndX, isLast, Option.isSome_some]
  | some boundary =>
      obtain ⟨glyph, isGlyph⟩ :=
        Option.isSome_iff_exists.mp (wraps boundary (List.mem_of_getLast? isLast))
      simp only [lastLineEndX, isLast, isGlyph, Option.map_some, Option.isSome_some]

/-- What the loop places is laid out as the line is. -/
theorem laid_of_inPlace {kind : SpanKind K S} {marks : List (Mark K)}
    {lastLineEndX : Option K} (increasing : line.Increasing)
    (isMarks : line.marks = some marks) (inPlace : line.InPlace kind lastLineEndX marks) :
    SpanKind.Laid line kind marks := by
  rcases marks_eq_some isMarks with ⟨cursor, last, started, read⟩
  have positions : marks.map (fun mark => mark.glyph.position.x) =
      line.layout.runGlyphs.map fun entry => entry.glyph.position.x := by
    apply map_readAll _ read
    intro cursor entry mark following isNext
    rw [(next_eq_some isNext).1]
  have sought : Sought line.decorationRuns 0 none cursor.runEnd cursor.decorationRuns := by
    cases found : line.rowOriginX 0 line.wrapBoundaries.head? with
    | none => simp [start, found] at started
    | some x =>
        simp only [start, found, Option.bind_eq_bind, Option.bind_some, Option.pure_def,
          Option.some.injEq] at started
        rw [← started]
        exact .fresh rfl
  constructor
  · exact isChain_follows read
  · rw [positions]
    exact increasing
  · intro before mark after split
    rw [inPlace.inOrder before mark after split, SpanKind.styleAt,
      foundAfter_of_readAll sought read split]

variable (line)

/-- Where the backgrounds stay with their glyphs. -/
def BackgroundsInPlace : Prop :=
  ∀ marks, line.marks = some marks →
    line.InPlace backgroundKind (line.lastLineEndX line.origin.x) marks

def UnderlinesInPlace : Prop :=
  ∀ marks, line.marks = some marks →
    line.InPlace line.underlineKind (line.lastLineEndX (line.firstGlyphX marks)) marks

variable {line} [IsStrictOrderedRing K]

theorem backgroundsCover_of_inPlace (increasing : line.Increasing)
    (wraps : line.WrapsAtGlyphs) (inPlace : line.BackgroundsInPlace) :
    line.BackgroundsCover := by
  rcases exists_marks wraps with ⟨marks, isMarks⟩
  rcases exists_lastLineEndX wraps line.origin.x with ⟨lastLineEndX, ends⟩
  rcases paintLineBackground_eq isMarks ends with ⟨painted, isPainted, tracked⟩
  have stays := inPlace marks isMarks
  refine ⟨painted, isPainted, marks, isMarks, ?_⟩
  rw [tracked]
  rw [ends] at stays
  exact SpanKind.covers_trackedPieces (laid_of_inPlace increasing isMarks stays) stays

theorem underlinesCover_of_inPlace (increasing : line.Increasing)
    (wraps : line.WrapsAtGlyphs) (inPlace : line.UnderlinesInPlace) :
    line.UnderlinesCover := by
  rcases exists_marks wraps with ⟨marks, isMarks⟩
  rcases exists_lastLineEndX wraps (line.firstGlyphX marks) with ⟨lastLineEndX, ends⟩
  rcases paintLine_eq isMarks ends with ⟨painted, isPainted, tracked, -⟩
  have stays := inPlace marks isMarks
  refine ⟨painted, isPainted, marks, isMarks, ?_⟩
  rw [tracked]
  rw [ends] at stays
  exact SpanKind.covers_trackedPieces (laid_of_inPlace increasing isMarks stays) stays

/-- Decorations that stay with their glyphs cover them. -/
theorem decorationsCover_of_inPlace (increasing : line.Increasing)
    (wraps : line.WrapsAtGlyphs) :
    (line.BackgroundsInPlace → line.BackgroundsCover) ∧
      (line.UnderlinesInPlace → line.UnderlinesCover) :=
  ⟨backgroundsCover_of_inPlace increasing wraps, underlinesCover_of_inPlace increasing wraps⟩

/-- Two glyphs on two rows, with one background and one underline. -/
def twoRows (align : TextAlign) : LineToPaint ℚ where
  origin := ⟨0, 0⟩
  layout :=
    { fontSize := 16, width := 30, ascent := 12, descent := 4, len := 2
      runs := [⟨0, [⟨1, ⟨0, 0⟩, 0, false⟩, ⟨2, ⟨20, 0⟩, 1, false⟩]⟩] }
  lineHeight := 20
  align := align
  alignWidth := some 20
  decorationRuns :=
    [⟨2, ⟨⟨0, 0, 0, 1⟩, some ⟨0, 0, 1, 1⟩, some ⟨1, some ⟨0, 0, 0, 1⟩, false⟩, none⟩⟩]
  wrapBoundaries := [⟨0, 1⟩]
  boundingBox _ _ := ⟨⟨0, 0⟩, ⟨10, 16⟩⟩
  contentMask := ⟨⟨0, 0⟩, ⟨100, 100⟩⟩

/-- The two glyphs of these rows, which begin where the alignment says. -/
def twoRowsMarks (x : ℚ) : List (Mark ℚ) :=
  [⟨⟨0, 0⟩, 0, ⟨1, ⟨0, 0⟩, 0, false⟩, none, ⟨0, 0⟩,
      .run ⟨⟨0, 0, 0, 1⟩, some ⟨0, 0, 1, 1⟩, some ⟨1, some ⟨0, 0, 0, 1⟩, false⟩, none⟩⟩,
    ⟨⟨0, 1⟩, 0, ⟨2, ⟨20, 0⟩, 1, false⟩, some 20, ⟨x, 20⟩, .inside⟩]

example : (twoRows .right).lastLineEndX 0 = some 10 := by
  decide +kernel

theorem twoRows_marks_left : (twoRows .left).marks = some (twoRowsMarks 0) := by
  decide +kernel

theorem twoRows_marks_center : (twoRows .center).marks = some (twoRowsMarks 5) := by
  decide +kernel

theorem twoRows_increasing (align : TextAlign) : (twoRows align).Increasing := by
  have positions : ((twoRows align).layout.runGlyphs.map fun entry => entry.glyph.position.x) =
      [0, 20] := rfl
  rw [Increasing, positions]
  decide +kernel

theorem twoRows_wrapsAtGlyphs (align : TextAlign) : (twoRows align).WrapsAtGlyphs := by
  intro boundary member
  rcases List.mem_singleton.mp member with rfl
  rfl

/-- Rows that begin at the origin leave every decoration in place. -/
theorem twoRows_inPlace (kind : SpanKind ℚ S) :
    (twoRows .left).InPlace kind (some 10) (twoRowsMarks 0) where
  inOrder := by
    intro before mark after split
    match before, split with
    | [], split =>
        rcases List.cons.inj split with ⟨rfl, -⟩
        rfl
    | [first], split =>
        rcases List.cons.inj split with ⟨isFirst, split⟩
        rcases List.cons.inj split with ⟨rfl, -⟩
        rw [← isFirst]
        rfl
    | first :: second :: before, split =>
        simp [twoRowsMarks] at split
  wraps := by
    intro before first second after split _ style _
    match before, split with
    | [], split =>
        rcases List.cons.inj split with ⟨-, split⟩
        rcases List.cons.inj split with ⟨rfl, -⟩
        exact ⟨fun _ => rfl, fun ends => absurd trivial ends⟩
    | [other], split => simp [twoRowsMarks] at split
    | other :: another :: before, split => simp [twoRowsMarks] at split
  ends := by
    intro before last split _
    match before, split with
    | [], split => simp [twoRowsMarks] at split
    | [first], split =>
        rcases List.cons.inj split with ⟨-, split⟩
        rcases List.cons.inj split with ⟨rfl, -⟩
        have stop : (twoRows .left).stopX
            ⟨⟨0, 1⟩, 0, ⟨2, ⟨20, 0⟩, 1, false⟩, some 20, ⟨0, 20⟩, .inside⟩ none = 10 := by
          decide +kernel
        rw [stop]
        refine ⟨rfl, by decide +kernel, ?_⟩
        intro noWidth
        exact absurd noWidth (by decide +kernel)
    | first :: second :: before, split => simp [twoRowsMarks] at split

theorem decorationsCover_of_inPlace_left :
    (twoRows .left).BackgroundsCover ∧ (twoRows .left).UnderlinesCover := by
  have covers := decorationsCover_of_inPlace (twoRows_increasing .left)
    (twoRows_wrapsAtGlyphs .left)
  constructor
  · apply covers.1
    intro marks isMarks
    rcases Option.some.inj (twoRows_marks_left.symm.trans isMarks) with rfl
    have ends : (twoRows .left).lastLineEndX (twoRows .left).origin.x = some 10 := by
      decide +kernel
    rw [ends]
    exact twoRows_inPlace backgroundKind
  · apply covers.2
    intro marks isMarks
    rcases Option.some.inj (twoRows_marks_left.symm.trans isMarks) with rfl
    have ends : (twoRows .left).lastLineEndX ((twoRows .left).firstGlyphX (twoRowsMarks 0)) =
        some 10 := by
      decide +kernel
    rw [ends]
    exact twoRows_inPlace (twoRows .left).underlineKind

/-- Centered rows, the second of which begins at five and is decorated from the origin up to
ten. -/
theorem not_decorationsCover :
    ¬ ∀ line : LineToPaint ℚ, line.Increasing → line.WrapsAtGlyphs →
      line.BackgroundsCover ∧ line.UnderlinesCover := by
  intro covers
  rcases covers _ (twoRows_increasing .center) (twoRows_wrapsAtGlyphs .center) with
    ⟨⟨painted, isPainted, marks, isMarks, same⟩, -⟩
  rcases Option.some.inj (twoRows_marks_center.symm.trans isMarks) with rfl
  have backgrounds : (twoRows .center).paintLineBackground = some
      [.quad ⟨⟨0, 0⟩, ⟨20, 20⟩⟩ ⟨0, 0, 1, 1⟩, .quad ⟨⟨0, 20⟩, ⟨10, 20⟩⟩ ⟨0, 0, 1, 1⟩] := by
    decide +kernel
  rcases Option.some.inj (backgrounds.symm.trans isPainted) with rfl
  have extents : (twoRows .center).styledExtents backgroundKind (twoRowsMarks 5) =
      [⟨0, ⟨0, 0, 1, 1⟩, 0, 20⟩, ⟨20, ⟨0, 0, 1, 1⟩, 5, 15⟩] := by
    decide +kernel
  rw [extents] at same
  have glyphThere : Covered
      [(⟨0, ⟨0, 0, 1, 1⟩, 0, 20⟩ : RowInterval ℚ (Hsla ℚ)), ⟨20, ⟨0, 0, 1, 1⟩, 5, 15⟩]
      20 ⟨0, 0, 1, 1⟩ 12 := by
    refine ⟨_, List.mem_cons_of_mem _ List.mem_cons_self, rfl, rfl, ?_⟩
    constructor
    · decide +kernel
    · decide +kernel
  rcases (same 20 ⟨0, 0, 1, 1⟩ 12).mpr glyphThere with ⟨interval, member, row, -, -, stop⟩
  rcases List.mem_cons.mp member with rfl | member
  · exact absurd row (by decide +kernel)
  · rcases List.mem_singleton.mp member with rfl
    exact absurd stop (by decide +kernel)

example : (twoRows .left).lastLineEndX 0 = some 10 := by
  decide +kernel

end LineToPaint

end Gpui
