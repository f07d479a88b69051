import Gpui.Library.Stretches
import Gpui.TextSystem.ShapeText

/-!
# The runs of the lines of a text

Every byte of a text has the style of the run that covers it.  The runs of a line are the
stretches of its bytes: the decoration runs are stretches of one decoration, and the font
runs are stretches of one font and one decoration.
-/

namespace Gpui

open Library

section

variable {F D : Type}

/-- The font and the decoration of every byte. -/
def styles (runs : List (TextRun F D)) : List (F × D) :=
  runs.flatMap fun run => List.replicate run.len (run.font, run.decoration)

/-- The styles of the bytes of each line, without the newlines. -/
def lineStyles : List (F × D) → List String → List (List (F × D))
  | _, [] => []
  | bytes, lineText :: lines =>
      bytes.take lineText.utf8ByteSize ::
        lineStyles (bytes.drop (lineText.utf8ByteSize + 1)) lines

theorem length_styles (runs : List (TextRun F D)) :
    (styles runs).length = (runs.map fun run => run.len).sum := by
  rw [styles, List.length_flatMap]
  simp only [List.length_replicate]

/-- Runs without length style nothing. -/
theorem styles_filter (runs : List (TextRun F D)) :
    styles (runs.filter fun run => 0 < run.len) = styles runs := by
  induction runs with
  | nil => rfl
  | cons run runs ih =>
      by_cases positive : 0 < run.len
      · simp only [List.filter_cons, decide_eq_true positive, if_true]
        simp only [styles, List.flatMap_cons] at ih ⊢
        rw [ih]
      · simp only [List.filter_cons, decide_eq_false positive, Bool.false_eq_true, if_false, ih]
        simp only [styles, List.flatMap_cons, Nat.eq_zero_of_not_pos positive,
          List.replicate_zero, List.nil_append]

/-- The newline belongs to no line. -/
theorem styles_skipNewline {runs : List (TextRun F D)}
    (positive : ∀ run ∈ runs, 0 < run.len) :
    styles (skipNewline runs) = (styles runs).drop 1 ∧
      ∀ run ∈ skipNewline runs, 0 < run.len := by
  cases runs with
  | nil => exact ⟨rfl, positive⟩
  | cons run runs =>
      have runPositive : 0 < run.len := positive run List.mem_cons_self
      have others : ∀ other ∈ runs, 0 < other.len :=
        fun other member => positive other (List.mem_cons_of_mem _ member)
      by_cases single : run.len - 1 = 0
      · rw [skipNewline, if_pos single]
        constructor
        · have one : run.len = 1 := by omega
          simp only [styles, List.flatMap_cons, one, List.replicate_one]
          rfl
        · exact others
      · rw [skipNewline, if_neg single]
        constructor
        · simp only [styles, List.flatMap_cons]
          rw [List.drop_append_of_le_length (by rw [List.length_replicate]; exact runPositive),
            List.drop_replicate]
        · intro other member
          rcases List.mem_cons.mp member with rfl | member
          · exact Nat.pos_of_ne_zero single
          · exact others other member

variable [DecidableEq D]

/-! ## The runs of a line -/

def decorationRunsOf (stretches : List (Nat × D)) : List (DecorationRun D) :=
  stretches.map fun stretch => ⟨UInt32.ofNat stretch.1, stretch.2⟩

def fontRunsOf (stretches : List (Nat × FontId × D)) : List FontRun :=
  stretches.map fun stretch => ⟨stretch.1, stretch.2.1⟩

def resolveStyle (resolveFont : F → FontId) (style : F × D) : FontId × D :=
  (resolveFont style.1, style.2)

/-- The decoration runs of a line whose bytes have the styles. -/
def lineDecorationRuns (line : List (F × D)) : List (DecorationRun D) :=
  decorationRunsOf (stretchesOf (line.map Prod.snd))

/-- The font runs of a line whose bytes have the styles. -/
def lineFontRuns (resolveFont : F → FontId) (line : List (F × D)) : List FontRun :=
  fontRunsOf (stretchesOf (line.map (resolveStyle resolveFont)))

theorem pushDecoration_eq (stretches : List (Nat × D)) (len : Nat) (decoration : D) :
    pushDecoration (decorationRunsOf stretches) len decoration =
      (decorationRunsOf (pushStretch stretches len decoration),
        decide (stretches.getLast?.map Prod.snd ≠ some decoration)) := by
  rcases List.eq_nil_or_concat stretches with rfl | ⟨front, last, rfl⟩
  · rfl
  · rw [List.concat_eq_append, decorationRunsOf, List.map_append, List.map_singleton,
      pushDecoration, List.getLast?_concat, List.dropLast_concat, List.getLast?_concat]
    by_cases same : last.2 = decoration
    · rcases last with ⟨first, other⟩
      cases same
      rw [pushStretch_concat_same]
      simp only [if_true, decorationRunsOf, List.map_append, List.map_singleton,
        UInt32.ofNat_add, Option.map_some, ne_eq, not_true_eq_false, decide_false]
    · rw [pushStretch_concat_other front len same]
      simp only [same, if_false, decorationRunsOf, List.map_append, List.map_singleton,
        Option.map_some, ne_eq, Option.some.injEq, not_false_eq_true, decide_true]

theorem pushFont_eq (stretches : List (Nat × FontId × D)) (len : Nat) (fontId : FontId)
    (decoration : D) :
    pushFont (fontRunsOf stretches) len fontId
        (decide (stretches.getLast?.map (fun last => last.2.2) ≠ some decoration)) =
      fontRunsOf (pushStretch stretches len (fontId, decoration)) := by
  rcases List.eq_nil_or_concat stretches with rfl | ⟨front, last, rfl⟩
  · rfl
  · rw [List.concat_eq_append, fontRunsOf, List.map_append, List.map_singleton,
      pushFont, List.getLast?_concat, List.dropLast_concat, List.getLast?_concat]
    rcases last with ⟨first, otherFont, otherDecoration⟩
    by_cases same : (otherFont, otherDecoration) = (fontId, decoration)
    · cases same
      rw [pushStretch_concat_same]
      simp [fontRunsOf]
    · rw [pushStretch_concat_other front len same]
      have split : ¬ (fontId = otherFont ∧
          decide (Option.map (fun last : Nat × FontId × D => last.2.2)
            (some (first, otherFont, otherDecoration)) ≠ some decoration) = false) := by
        rintro ⟨sameFont, sameDecoration⟩
        simp only [Option.map_some, ne_eq, Option.some.injEq, decide_not, Bool.not_eq_eq_eq_not,
          Bool.not_false, decide_eq_true_eq] at sameDecoration
        exact same (Prod.ext sameFont.symm sameDecoration)
      apply (if_neg split).trans
      simp only [fontRunsOf, List.map_append, List.map_singleton]

/-- What has been cut off for a line so far. -/
structure CutStretches (decorations : List (Nat × D)) (fonts : List (Nat × FontId × D)) :
    Prop where
  decorations_stretched : Stretched decorations
  fonts_stretched : Stretched fonts
  same_bytes : expandStretches decorations = (expandStretches fonts).map Prod.snd

omit [DecidableEq D] in
theorem cutStretches_nil : CutStretches ([] : List (Nat × D)) [] where
  decorations_stretched := stretched_nil
  fonts_stretched := stretched_nil
  same_bytes := rfl

omit [DecidableEq D] in
/-- Both kinds of runs end with the same decoration. -/
theorem CutStretches.getLast? {decorations : List (Nat × D)} {fonts : List (Nat × FontId × D)}
    (cut : CutStretches decorations fonts) :
    decorations.getLast?.map Prod.snd = fonts.getLast?.map fun last => last.2.2 := by
  rw [← cut.decorations_stretched.getLast?_expand, cut.same_bytes, List.getLast?_map,
    cut.fonts_stretched.getLast?_expand, Option.map_map]
  rfl

theorem CutStretches.push {decorations : List (Nat × D)} {fonts : List (Nat × FontId × D)}
    (cut : CutStretches decorations fonts) {len : Nat} (positive : 0 < len) (fontId : FontId)
    (decoration : D) :
    CutStretches (pushStretch decorations len decoration)
      (pushStretch fonts len (fontId, decoration)) where
  decorations_stretched := cut.decorations_stretched.push positive decoration
  fonts_stretched := cut.fonts_stretched.push positive (fontId, decoration)
  same_bytes := by
    rw [expandStretches_push, expandStretches_push, cut.same_bytes, List.map_append,
      List.map_replicate]

/-- A line takes its bytes from the front of the runs. -/
theorem cutRuns_stretches (resolveFont : F → FontId) (remaining : Nat)
    {decorations : List (Nat × D)} {fonts : List (Nat × FontId × D)}
    (cut : CutStretches decorations fonts) {runs : List (TextRun F D)}
    (positive : ∀ run ∈ runs, 0 < run.len) :
    ∃ decorations' fonts' rest,
      cutRuns resolveFont remaining (decorationRunsOf decorations) (fontRunsOf fonts) runs =
        (decorationRunsOf decorations', fontRunsOf fonts', rest) ∧
      CutStretches decorations' fonts' ∧
      expandStretches fonts' =
        expandStretches fonts ++ ((styles runs).take remaining).map (resolveStyle resolveFont) ∧
      styles rest = (styles runs).drop remaining ∧
      ∀ run ∈ rest, 0 < run.len := by
  induction runs generalizing remaining decorations fonts with
  | nil =>
      refine ⟨decorations, fonts, [], ?_, cut, ?_, ?_, positive⟩
      · cases remaining <;> rfl
      · simp only [styles, List.flatMap_nil, List.take_nil, List.map_nil, List.append_nil]
      · simp only [styles, List.flatMap_nil, List.drop_nil]
  | cons run runs ih =>
      cases remaining with
      | zero =>
          refine ⟨decorations, fonts, run :: runs, rfl, cut, ?_, rfl, positive⟩
          simp only [List.take_zero, List.map_nil, List.append_nil]
      | succ less =>
          have runPositive : 0 < run.len := positive run List.mem_cons_self
          have others : ∀ other ∈ runs, 0 < other.len :=
            fun other member => positive other (List.mem_cons_of_mem _ member)
          have lenPositive : 0 < min (less + 1) run.len := by omega
          have pushed := cut.push lenPositive (resolveFont run.font) run.decoration
          have taken : (styles (run :: runs)).take (less + 1) =
              List.replicate (min (less + 1) run.len) (run.font, run.decoration) ++
                (styles runs).take (less + 1 - run.len) := by
            simp only [styles, List.flatMap_cons]
            rw [List.take_append, List.take_replicate, List.length_replicate]
          rw [cutRuns]
          · simp only [pushDecoration_eq, cut.getLast?, pushFont_eq]
            by_cases spent : run.len - min (less + 1) run.len = 0
            · -- The whole run lies within the line.
              have within : min (less + 1) run.len = run.len := by omega
              rw [if_pos spent]
              rcases ih (less + 1 - min (less + 1) run.len) pushed others with
                ⟨decorations', fonts', rest, cuts, cut', expands, left, restPositive⟩
              refine ⟨decorations', fonts', rest, cuts, cut', ?_, ?_, restPositive⟩
              · rw [expands, expandStretches_push, taken, List.map_append, List.map_replicate,
                  List.append_assoc, within]
                rfl
              · rw [left, within]
                simp only [styles, List.flatMap_cons]
                rw [List.drop_append, List.length_replicate, List.drop_replicate,
                  show run.len - (less + 1) = 0 by omega, List.replicate_zero,
                  List.nil_append]
            · have within : min (less + 1) run.len = less + 1 := by omega
              rw [if_neg spent]
              refine ⟨_, _, _, rfl, pushed, ?_, ?_, ?_⟩
              · rw [expandStretches_push, taken, show less + 1 - run.len = 0 by omega,
                  List.take_zero, List.append_nil, List.map_replicate]
                rfl
              · simp only [styles, List.flatMap_cons]
                rw [List.drop_append_of_le_length
                    (by rw [List.length_replicate]; omega), List.drop_replicate, within]
              · intro other member
                rcases List.mem_cons.mp member with rfl | member
                · exact Nat.pos_of_ne_zero spent
                · exact others other member
          · intro absurd
            cases absurd

/-- The runs of a line are the stretches of its bytes. -/
theorem cutRuns_eq (resolveFont : F → FontId) (remaining : Nat) {runs : List (TextRun F D)}
    (positive : ∀ run ∈ runs, 0 < run.len) :
    ∃ rest,
      cutRuns resolveFont remaining [] [] runs =
        (lineDecorationRuns ((styles runs).take remaining),
          lineFontRuns resolveFont ((styles runs).take remaining), rest) ∧
      styles rest = (styles runs).drop remaining ∧
      ∀ run ∈ rest, 0 < run.len := by
  rcases cutRuns_stretches resolveFont remaining cutStretches_nil positive with
    ⟨decorations, fonts, rest, cuts, cut, expands, left, restPositive⟩
  have fontBytes : expandStretches fonts =
      ((styles runs).take remaining).map (resolveStyle resolveFont) := expands
  have decorationBytes : expandStretches decorations =
      ((styles runs).take remaining).map Prod.snd := by
    rw [cut.same_bytes, fontBytes, List.map_map]
    rfl
  refine ⟨rest, ?_, left, restPositive⟩
  rw [lineDecorationRuns, lineFontRuns, ← fontBytes, ← decorationBytes,
    cut.decorations_stretched.stretchesOf_expand, cut.fonts_stretched.stretchesOf_expand]
  exact cuts

end

namespace TextSystem

variable {K F D : Type} [Field K] [LinearOrder K] [DecidableEq D]

/-! ## The lines -/

/-- How often the lines wrap where nothing limits them. -/
def unlimitedWraps (self : TextSystem K F) (fontSize : K) (wrapWidth : Option K) :
    List (F × D) → List String → Nat
  | _, [] => 0
  | bytes, lineText :: lines =>
      ((self.platform.wrappedLineLayout lineText fontSize
          (lineFontRuns self.resolveFont (bytes.take lineText.utf8ByteSize)) wrapWidth
          none).elim 0 fun layout => layout.wrapBoundaries.length) +
        self.unlimitedWraps fontSize wrapWidth (bytes.drop (lineText.utf8ByteSize + 1)) lines

/-- The first line is cut off, and what is left is shaped. -/
theorem processLines_cons (self : TextSystem K F) (fontSize : K) (wrapWidth : Option K)
    (lineClamp : Option UInt64) (wrappedLines : Nat) {runs : List (TextRun F D)}
    (positive : ∀ run ∈ runs, 0 < run.len) {lineText : String} {lines : List String}
    {shaped : List (WrappedLine K D)}
    (shapes : self.processLines fontSize wrapWidth lineClamp wrappedLines runs
      (lineText :: lines) = some shaped) :
    ∃ layout others rest,
      self.platform.wrappedLineLayout lineText fontSize
          (lineFontRuns self.resolveFont ((styles runs).take lineText.utf8ByteSize)) wrapWidth
          (lineClamp.map fun max => UInt64.ofNat (max.toNat - wrappedLines)) = some layout ∧
      self.processLines fontSize wrapWidth lineClamp
          (wrappedLines + layout.wrapBoundaries.length) rest lines = some others ∧
      shaped =
        { layout
          decorationRuns := lineDecorationRuns ((styles runs).take lineText.utf8ByteSize)
          text := lineText } :: others ∧
      styles rest = (styles runs).drop (lineText.utf8ByteSize + 1) ∧
      ∀ run ∈ rest, 0 < run.len := by
  rcases cutRuns_eq self.resolveFont lineText.utf8ByteSize positive with
    ⟨rest, cuts, left, restPositive⟩
  rcases styles_skipNewline restPositive with ⟨skipped, skippedPositive⟩
  rw [processLines, cuts] at shapes
  simp only [Option.bind_eq_bind, Option.bind_eq_some_iff] at shapes
  rcases shapes with ⟨layout, laidOut, others, othersShape, whole⟩
  refine ⟨layout, others, skipNewline rest, laidOut, othersShape, ?_, ?_, skippedPositive⟩
  · exact (Option.some.inj whole).symm
  · rw [skipped, left, List.drop_drop]

/-- What is known of a line, of which every byte has a style. -/
structure ShapedAs (self : TextSystem K F) (fontSize : K) (wrapWidth : Option K)
    (line : WrappedLine K D) (bytes : List (F × D)) : Prop where
  decorationRuns_eq : line.decorationRuns = lineDecorationRuns bytes
  laidOut : ∃ maxLines, self.platform.wrappedLineLayout line.text fontSize
    (lineFontRuns self.resolveFont bytes) wrapWidth maxLines = some line.layout

theorem processLines_shaped (self : TextSystem K F) (fontSize : K) (wrapWidth : Option K)
    (lineClamp : Option UInt64) {wrappedLines : Nat} {runs : List (TextRun F D)}
    (positive : ∀ run ∈ runs, 0 < run.len) {lines : List String}
    {shaped : List (WrappedLine K D)}
    (shapes : self.processLines fontSize wrapWidth lineClamp wrappedLines runs lines =
      some shaped) :
    shaped.map (fun line => line.text) = lines ∧
      List.Forall₂ (self.ShapedAs fontSize wrapWidth) shaped (lineStyles (styles runs) lines) := by
  induction lines generalizing wrappedLines runs shaped with
  | nil =>
      cases shapes
      exact ⟨rfl, List.Forall₂.nil⟩
  | cons lineText lines ih =>
      rcases self.processLines_cons fontSize wrapWidth lineClamp wrappedLines positive shapes with
        ⟨layout, others, rest, laidOut, othersShape, rfl, left, restPositive⟩
      rcases ih restPositive othersShape with ⟨texts, each⟩
      constructor
      · rw [List.map_cons, texts]
      · rw [lineStyles, ← left]
        exact List.Forall₂.cons ⟨rfl, _, laidOut⟩ each

/-- The wraps that a limit leaves to one line. -/
theorem wraps_limited (self : TextSystem K F) (lineText : String) (fontSize : K)
    (fontRuns : List FontRun) (wrapWidth : Option K) (limit : Nat) (positive : 0 < limit)
    (inRange : limit < 2 ^ 64) {layout : WrappedLineLayout K}
    (laidOut : self.platform.wrappedLineLayout lineText fontSize fontRuns wrapWidth
      (some (UInt64.ofNat limit)) = some layout) :
    layout.wrapBoundaries.length =
      min (limit - 1) ((self.platform.wrappedLineLayout lineText fontSize fontRuns wrapWidth
        none).elim 0 fun layout => layout.wrapBoundaries.length) := by
  rcases self.platform.exists_wrappedLineLayout lineText fontSize fontRuns wrapWidth with
    ⟨boundaries, -, -, each⟩
  have limitLess : (UInt64.ofNat limit - 1).toNat = limit - 1 := by
    have asNat : (UInt64.ofNat limit).toNat = limit := UInt64.toNat_ofNat_of_lt' inRange
    have atLeast : (1 : UInt64) ≤ UInt64.ofNat limit := by
      rw [UInt64.le_iff_toNat_le, asNat]
      exact positive
    rw [UInt64.toNat_sub_of_le _ _ atLeast, asNat]
    rfl
  rw [each] at laidOut
  cases laidOut
  rw [each]
  simp only [limitLines, Option.elim_some, List.length_take, limitLess]

/-- The wraps of all lines are limited together. -/
theorem processLines_clamped (self : TextSystem K F) (fontSize : K) (wrapWidth : Option K)
    (max : UInt64) {wrappedLines : Nat} (below : wrappedLines < max.toNat)
    {runs : List (TextRun F D)} (positive : ∀ run ∈ runs, 0 < run.len) {lines : List String}
    {shaped : List (WrappedLine K D)}
    (shapes : self.processLines fontSize wrapWidth (some max) wrappedLines runs lines =
      some shaped) :
    wrappedLines + (shaped.map fun line => line.layout.wrapBoundaries.length).sum =
      min (wrappedLines + self.unlimitedWraps fontSize wrapWidth (styles runs) lines)
        (max.toNat - 1) := by
  induction lines generalizing wrappedLines runs shaped with
  | nil =>
      cases shapes
      simp only [List.map_nil, List.sum_nil, unlimitedWraps]
      omega
  | cons lineText lines ih =>
      rcases self.processLines_cons fontSize wrapWidth (some max) wrappedLines positive shapes with
        ⟨layout, others, rest, laidOut, othersShape, rfl, left, restPositive⟩
      have inRange : max.toNat - wrappedLines < 2 ^ 64 :=
        lt_of_le_of_lt (Nat.sub_le _ _) max.toNat_lt
      have wraps := self.wraps_limited lineText fontSize _ wrapWidth _ (Nat.sub_pos_of_lt below)
        inRange laidOut
      have stillBelow : wrappedLines + layout.wrapBoundaries.length < max.toNat := by omega
      have total := ih stillBelow restPositive othersShape
      rw [List.map_cons, List.sum_cons, unlimitedWraps, ← left, ← Nat.add_assoc, total]
      omega

end TextSystem

end Gpui
