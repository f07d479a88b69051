import Gpui.TextSystem.LineWrapper

/-!
# Shaping a text

A text is shaped line by line.  Its runs are cut at the ends of the lines, into runs of one
decoration and runs of one font, and the limit of rows is shared by the lines.

A line is laid out as it is without the cache of lines.
-/

namespace Gpui

/-- The text decoration for a run of text. -/
structure DecorationRun (D : Type) where
  len : UInt32
  decoration : D
deriving DecidableEq

/-- A line of text that has been shaped, decorated and wrapped. -/
structure WrappedLine (K D : Type) where
  layout : WrappedLineLayout K
  decorationRuns : List (DecorationRun D)
  text : String
deriving DecidableEq

/-- The platform and the fonts it has. -/
structure TextSystem (K F : Type) where
  platform : PlatformTextSystem K
  resolveFont : F → FontId

section

variable {F D : Type} [DecidableEq D]

/-- Make the last decoration longer, or begin another. -/
def pushDecoration (decorationRuns : List (DecorationRun D)) (len : Nat) (decoration : D) :
    List (DecorationRun D) × Bool :=
  match decorationRuns.getLast? with
  | some last =>
      if last.decoration = decoration then
        (decorationRuns.dropLast ++ [{ last with len := last.len + UInt32.ofNat len }], false)
      else (decorationRuns ++ [⟨UInt32.ofNat len, decoration⟩], true)
  | none => (decorationRuns ++ [⟨UInt32.ofNat len, decoration⟩], true)

/-- Make the last run of a font longer, unless the decoration has changed. -/
def pushFont (fontRuns : List FontRun) (len : Nat) (fontId : FontId)
    (decorationChanged : Bool) : List FontRun :=
  match fontRuns.getLast? with
  | some last =>
      if fontId = last.fontId ∧ decorationChanged = false then
        fontRuns.dropLast ++ [{ last with len := last.len + len }]
      else fontRuns ++ [⟨len, fontId⟩]
  | none => fontRuns ++ [⟨len, fontId⟩]

/-- Cut a line off the runs: its decorations, its fonts and the runs that are left.  All
runs have some length. -/
def cutRuns (resolveFont : F → FontId) :
    Nat → List (DecorationRun D) → List FontRun → List (TextRun F D) →
      List (DecorationRun D) × List FontRun × List (TextRun F D)
  | _, decorationRuns, fontRuns, [] => (decorationRuns, fontRuns, [])
  | 0, decorationRuns, fontRuns, run :: runs => (decorationRuns, fontRuns, run :: runs)
  | remaining, decorationRuns, fontRuns, run :: runs =>
      let runLenWithinLine := min remaining run.len
      let (decorationRuns, decorationChanged) :=
        pushDecoration decorationRuns runLenWithinLine run.decoration
      let fontRuns := pushFont fontRuns runLenWithinLine (resolveFont run.font) decorationChanged
      if run.len - runLenWithinLine = 0 then
        cutRuns resolveFont (remaining - runLenWithinLine) decorationRuns fontRuns runs
      else
        -- The line ends within the run.
        (decorationRuns, fontRuns, { run with len := run.len - runLenWithinLine } :: runs)

/-- Skip the newline. -/
def skipNewline : List (TextRun F D) → List (TextRun F D)
  | [] => []
  | run :: runs => if run.len - 1 = 0 then runs else { run with len := run.len - 1 } :: runs

end

namespace TextSystem

variable {K F D : Type} [Field K] [LinearOrder K] [DecidableEq D]

/-- `process_line`, for each of the lines. -/
def processLines (self : TextSystem K F) (fontSize : K) (wrapWidth : Option K)
    (lineClamp : Option UInt64) :
    Nat → List (TextRun F D) → List String → Option (List (WrappedLine K D))
  | _, _, [] => some []
  | wrappedLines, runs, lineText :: lines => do
      let (decorationRuns, fontRuns, runs) :=
        cutRuns self.resolveFont lineText.utf8ByteSize [] [] runs
      let layout ← self.platform.wrappedLineLayout lineText fontSize fontRuns wrapWidth
        (lineClamp.map fun max => UInt64.ofNat (max.toNat - wrappedLines))
      let shaped ← self.processLines fontSize wrapWidth lineClamp
        (wrappedLines + layout.wrapBoundaries.length) (skipNewline runs) lines
      return { layout, decorationRuns, text := lineText } :: shaped

/-- Shape the text, at the given font size, for the display. -/
def shapeText (self : TextSystem K F) (text : String) (fontSize : K)
    (runs : List (TextRun F D)) (wrapWidth : Option K) (lineClamp : Option UInt64) :
    Option (List (WrappedLine K D)) :=
  self.processLines fontSize wrapWidth lineClamp 0 (runs.filter fun run => 0 < run.len)
    ((text.toList.splitOn '\n').map String.ofList)

/-- Shaping never fails. -/
theorem exists_processLines (self : TextSystem K F) (fontSize : K) (wrapWidth : Option K)
    (lineClamp : Option UInt64) (wrappedLines : Nat) (runs : List (TextRun F D))
    (lines : List String) :
    ∃ shaped, self.processLines fontSize wrapWidth lineClamp wrappedLines runs lines =
      some shaped := by
  induction lines generalizing wrappedLines runs with
  | nil => exact ⟨[], rfl⟩
  | cons lineText lines ih =>
      rcases cut : cutRuns self.resolveFont lineText.utf8ByteSize [] [] runs with
        ⟨decorationRuns, fontRuns, rest⟩
      rcases self.platform.exists_wrappedLineLayout lineText fontSize fontRuns wrapWidth with
        ⟨boundaries, _, _, laidOut⟩
      rw [processLines, cut]
      simp only [laidOut, Option.bind_eq_bind, Option.bind_some]
      rcases ih (wrappedLines + (limitLines
        (lineClamp.map fun max => UInt64.ofNat (max.toNat - wrappedLines)) boundaries).length)
        (skipNewline rest) with ⟨shaped, shapes⟩
      rw [shapes]
      exact ⟨_, rfl⟩

theorem exists_shapeText (self : TextSystem K F) (text : String) (fontSize : K)
    (runs : List (TextRun F D)) (wrapWidth : Option K) (lineClamp : Option UInt64) :
    ∃ shaped, self.shapeText text fontSize runs wrapWidth lineClamp = some shaped :=
  self.exists_processLines _ _ _ _ _ _

end TextSystem

end Gpui
