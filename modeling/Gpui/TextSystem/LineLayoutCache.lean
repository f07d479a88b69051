import Gpui.Library.PartialMap
import Gpui.Library.Transition
import Gpui.TextSystem.LineLayout

/-!
# The cache of laid out lines

Lines laid out in a frame are kept for the next one, under the arguments they were laid
out with.  `max_lines` is not among them: a wrapped line found in the cache is broken as
often as the call that put it there asked for.

The calls come one after another; the locks are left out.
-/

namespace Gpui

open Gpui.Library

/-- A run of text with a single font. -/
structure FontRun where
  len : Nat
  fontId : FontId
deriving DecidableEq, Repr

/-- What the platform makes of a line: a function of its arguments, whose glyphs stand
for characters of the text. -/
structure PlatformTextSystem (K : Type) where
  layoutLine : String → K → List FontRun → LineLayout K
  indexed : ∀ text fontSize runs, (layoutLine text fontSize runs).Indexed text.toList

structure CacheKey (K : Type) where
  text : String
  fontSize : K
  runs : List FontRun
  wrapWidth : Option K
  forceWidth : Option K
deriving DecidableEq

section

variable {K : Type} [Field K] [LinearOrder K]

namespace ShapedGlyph

/-- Move a glyph that is more than a pixel away from its place in the grid. -/
def force (self : ShapedGlyph K) (forceWidth : K) (glyphPos : Nat) : ShapedGlyph K :=
  if |self.position.x - glyphPos * forceWidth| > 1 then
    { self with position := { self.position with x := glyphPos * forceWidth } }
  else self

@[simp]
theorem force_index (self : ShapedGlyph K) (forceWidth : K) (glyphPos : Nat) :
    (self.force forceWidth glyphPos).index = self.index := by
  unfold force
  split
  · rfl
  · rfl

end ShapedGlyph

namespace LineLayout

/-- The glyphs of all runs are counted together. -/
def forceRuns (forceWidth : K) : Nat → List (ShapedRun K) → List (ShapedRun K)
  | _, [] => []
  | glyphPos, run :: runs =>
      { run with
        glyphs := run.glyphs.mapIdx fun ix glyph => glyph.force forceWidth (glyphPos + ix) } ::
        forceRuns forceWidth (glyphPos + run.glyphs.length) runs

def force (self : LineLayout K) : Option K → LineLayout K
  | none => self
  | some forceWidth => { self with runs := forceRuns forceWidth 0 self.runs }

end LineLayout

namespace PlatformTextSystem

variable (platform : PlatformTextSystem K)

/-- A line, laid out without the cache. -/
def lineLayout (text : String) (fontSize : K) (runs : List FontRun) (forceWidth : Option K) :
    LineLayout K :=
  (platform.layoutLine text fontSize runs).force forceWidth

/-- A wrapped line, laid out without the cache. -/
def wrappedLineLayout (text : String) (fontSize : K) (runs : List FontRun)
    (wrapWidth : Option K) (maxLines : Option UInt64) : Option (WrappedLineLayout K) := do
  let unwrappedLayout := platform.lineLayout text fontSize runs none
  let wrapBoundaries ←
    match wrapWidth with
    | some wrapWidth =>
        unwrappedLayout.computeWrapBoundaries text.toList wrapWidth maxLines
    | none => some []
  return { unwrappedLayout, wrapBoundaries, wrapWidth }

end PlatformTextSystem

/-! ## The text system of the tests -/

/-- Behind the bytes of the front of a text starts its rest. -/
theorem characterAt_append (front text : List Char) :
    characterAt (front ++ text) (front.map Char.utf8Size).sum = text.head? := by
  induction front with
  | nil =>
      cases text with
      | nil => rfl
      | cons c text => simp [characterAt]
  | cons first front ih =>
      have positive := first.utf8Size_pos
      simp [characterAt, ih, positive.ne']

namespace NoopTextSystem

/-- The glyphs of a text and the position after them: one for each character, and twice
as wide for those of two UTF-16 units. -/
def glyphs (emWidth : K) : List Char → Nat → K → List (ShapedGlyph K) × K
  | [], _, position => ([], position)
  | c :: text, ix, position =>
      let glyph : GlyphId := if c.val ≤ 0xFFFF then 1 else 2
      let rest := glyphs emWidth text (ix + c.utf8Size)
        (if glyph = 2 then position + emWidth * 2 else position + emWidth)
      ({ id := glyph, position := ⟨position, 0⟩, index := ix, isEmoji := glyph = 2 } :: rest.1,
        rest.2)

def layoutLine (text : String) (fontSize : K) (_runs : List FontRun) : LineLayout K :=
  let emWidth := fontSize * 600 / 1000
  let shaped := glyphs emWidth text.toList 0 0
  { fontSize
    width := shaped.2
    ascent := fontSize * (1025 / 1000)
    descent := fontSize * (-275 / 1000)
    runs := if shaped.1 = [] then [] else [{ fontId := 0, glyphs := shaped.1 }]
    len := text.utf8ByteSize }

omit [LinearOrder K] in
theorem glyphs_index (emWidth : K) (front text : List Char) (position : K) :
    ∀ glyph ∈ (glyphs emWidth text (front.map Char.utf8Size).sum position).1,
      (characterAt (front ++ text) glyph.index).isSome := by
  induction text generalizing front position with
  | nil => simp [glyphs]
  | cons c text ih =>
      intro glyph member
      rcases List.mem_cons.mp member with rfl | later
      · rw [characterAt_append]
        rfl
      · have next := ih (front ++ [c])
          (if (if c.val ≤ 0xFFFF then (1 : GlyphId) else 2) = 2 then position + emWidth * 2
            else position + emWidth) glyph
        rw [List.append_assoc] at next
        exact next (by simpa using later)

/-- The platform of the tests. -/
def platform : PlatformTextSystem K where
  layoutLine := layoutLine
  indexed text fontSize runs := by
    intro run member glyph found
    simp only [layoutLine] at member
    split at member
    next => simp at member
    next =>
      rw [List.mem_singleton.mp member] at found
      exact glyphs_index _ [] text.toList 0 glyph found

end NoopTextSystem

end

/-! ## The cache -/

structure FrameCache (K : Type) where
  lines : PartialMap (CacheKey K) fun _ => LineLayout K
  wrappedLines : PartialMap (CacheKey K) fun _ => WrappedLineLayout K
  usedLines : List (CacheKey K)
  usedWrappedLines : List (CacheKey K)

/-- `FrameCache::default`. -/
def FrameCache.empty {K : Type} : FrameCache K where
  lines := .empty
  wrappedLines := .empty
  usedLines := []
  usedWrappedLines := []

structure LineLayoutIndex where
  linesIndex : Nat
  wrappedLinesIndex : Nat
deriving DecidableEq, Repr

structure LineLayoutCache (K : Type) where
  previousFrame : FrameCache K
  currentFrame : FrameCache K

/-- `&keys[start..end]`. -/
def sliceRange {α : Type} (keys : List α) (first last : Nat) : Option (List α) :=
  if first ≤ last ∧ last ≤ keys.length then some ((keys.take last).drop first) else none

namespace LineLayoutCache

variable {K : Type}

def new : LineLayoutCache K where
  previousFrame := .empty
  currentFrame := .empty

def layoutIndex (self : LineLayoutCache K) : LineLayoutIndex where
  linesIndex := self.currentFrame.usedLines.length
  wrappedLinesIndex := self.currentFrame.usedWrappedLines.length

def truncateLayouts (self : LineLayoutCache K) (index : LineLayoutIndex) : LineLayoutCache K :=
  { self with
    currentFrame :=
      { self.currentFrame with
        usedLines := self.currentFrame.usedLines.take index.linesIndex
        usedWrappedLines :=
          self.currentFrame.usedWrappedLines.take index.wrappedLinesIndex } }

def finishFrame (self : LineLayoutCache K) : LineLayoutCache K where
  previousFrame := self.currentFrame
  currentFrame := .empty

variable [DecidableEq K]

/-- `None` where a range is out of bounds. -/
def reuseLayouts (self : LineLayoutCache K) (range : LineLayoutIndex × LineLayoutIndex) :
    Option (LineLayoutCache K) := do
  let lines ← sliceRange self.previousFrame.usedLines range.1.linesIndex range.2.linesIndex
  let wrappedLines ← sliceRange self.previousFrame.usedWrappedLines range.1.wrappedLinesIndex
    range.2.wrappedLinesIndex
  let lineMaps :=
    lines.foldl PartialMap.promote (self.previousFrame.lines, self.currentFrame.lines)
  let wrappedMaps :=
    wrappedLines.foldl PartialMap.promote
      (self.previousFrame.wrappedLines, self.currentFrame.wrappedLines)
  return {
    previousFrame :=
      { self.previousFrame with lines := lineMaps.1, wrappedLines := wrappedMaps.1 }
    currentFrame :=
      { lines := lineMaps.2
        wrappedLines := wrappedMaps.2
        usedLines := self.currentFrame.usedLines ++ lines
        usedWrappedLines := self.currentFrame.usedWrappedLines ++ wrappedLines } }

/-- Put a line into the current frame. -/
def insertLine (self : LineLayoutCache K) (key : CacheKey K) (layout : LineLayout K) :
    LineLayoutCache K :=
  { self with
    currentFrame :=
      { self.currentFrame with
        lines := self.currentFrame.lines.insert key layout
        usedLines := self.currentFrame.usedLines ++ [key] } }

/-- Put a wrapped line into the current frame. -/
def insertWrappedLine (self : LineLayoutCache K) (key : CacheKey K)
    (layout : WrappedLineLayout K) : LineLayoutCache K :=
  { self with
    currentFrame :=
      { self.currentFrame with
        wrappedLines := self.currentFrame.wrappedLines.insert key layout
        usedWrappedLines := self.currentFrame.usedWrappedLines ++ [key] } }

/-- `previous_frame.lines.remove_entry(key)`. -/
def removePreviousLine (self : LineLayoutCache K) (key : CacheKey K) : LineLayoutCache K :=
  { self with
    previousFrame :=
      { self.previousFrame with
        lines := self.previousFrame.lines.remove key } }

/-- `previous_frame.wrapped_lines.remove_entry(key)`. -/
def removePreviousWrappedLine (self : LineLayoutCache K) (key : CacheKey K) :
    LineLayoutCache K :=
  { self with
    previousFrame :=
      { self.previousFrame with
        wrappedLines := self.previousFrame.wrappedLines.remove key } }

end LineLayoutCache

namespace LineLayoutCache

variable {K : Type} [Field K] [LinearOrder K]

def layoutLine (platform : PlatformTextSystem K) (self : LineLayoutCache K) (text : String)
    (fontSize : K) (runs : List FontRun) (forceWidth : Option K) :
    LineLayout K × LineLayoutCache K :=
  let key := { text, fontSize, runs, wrapWidth := none, forceWidth }
  match self.currentFrame.lines key with
  | some layout => (layout, self)
  | none =>
      match self.previousFrame.lines key with
      | some layout => (layout, (self.removePreviousLine key).insertLine key layout)
      | none =>
          let layout := platform.lineLayout text fontSize runs forceWidth
          (layout, self.insertLine key layout)

/-- `None` where a glyph stands for no character of the text. -/
def layoutWrappedLine (platform : PlatformTextSystem K) (self : LineLayoutCache K)
    (text : String) (fontSize : K) (runs : List FontRun) (wrapWidth : Option K)
    (maxLines : Option UInt64) : Option (WrappedLineLayout K × LineLayoutCache K) :=
  let key := { text, fontSize, runs, wrapWidth, forceWidth := none }
  match self.currentFrame.wrappedLines key with
  | some layout => some (layout, self)
  | none =>
      match self.previousFrame.wrappedLines key with
      | some layout =>
          some (layout, (self.removePreviousWrappedLine key).insertWrappedLine key layout)
      | none => do
          let (unwrappedLayout, self) := self.layoutLine platform text fontSize runs none
          let wrapBoundaries ←
            match wrapWidth with
            | some wrapWidth =>
                unwrappedLayout.computeWrapBoundaries text.toList wrapWidth maxLines
            | none => some []
          let layout := { unwrappedLayout, wrapBoundaries, wrapWidth }
          return (layout, self.insertWrappedLine key layout)

end LineLayoutCache

/-- A call of the cache. -/
inductive LineLayoutCall (K : Type) where
  | layoutLine (text : String) (fontSize : K) (runs : List FontRun) (forceWidth : Option K)
  | layoutWrappedLine (text : String) (fontSize : K) (runs : List FontRun)
      (wrapWidth : Option K) (maxLines : Option UInt64)
  | reuseLayouts (range : LineLayoutIndex × LineLayoutIndex)
  | truncateLayouts (index : LineLayoutIndex)
  | finishFrame

/-- The cache after a call that does not fail. -/
def LineLayoutCall.step {K : Type} [Field K] [LinearOrder K] (platform : PlatformTextSystem K)
    (cache : LineLayoutCache K) : LineLayoutCall K → Option (LineLayoutCache K)
  | .layoutLine text fontSize runs forceWidth =>
      some (cache.layoutLine platform text fontSize runs forceWidth).2
  | .layoutWrappedLine text fontSize runs wrapWidth maxLines =>
      (cache.layoutWrappedLine platform text fontSize runs wrapWidth maxLines).map Prod.snd
  | .reuseLayouts range => cache.reuseLayouts range
  | .truncateLayouts index => some (cache.truncateLayouts index)
  | .finishFrame => some cache.finishFrame

/-! ## What the cache holds -/

variable {K : Type} [Field K] [LinearOrder K]

theorem LineLayout.mem_forceRuns {forceWidth : K} {glyphPos : Nat} {runs : List (ShapedRun K)}
    {run : ShapedRun K} (member : run ∈ forceRuns forceWidth glyphPos runs) :
    ∀ glyph ∈ run.glyphs, ∃ original ∈ runs, ∃ unforced ∈ original.glyphs,
      glyph.index = unforced.index := by
  induction runs generalizing glyphPos with
  | nil => simp [forceRuns] at member
  | cons first runs ih =>
      intro glyph found
      rcases List.mem_cons.mp member with rfl | later
      · rcases List.mem_mapIdx.mp found with ⟨ix, bound, rfl⟩
        exact ⟨first, List.mem_cons_self, first.glyphs[ix], List.getElem_mem bound,
          ShapedGlyph.force_index _ _ _⟩
      · rcases ih later glyph found with ⟨original, among, unforced⟩
        exact ⟨original, List.mem_cons_of_mem _ among, unforced⟩

/-- Forcing a width moves glyphs only. -/
theorem LineLayout.Indexed.force {text : List Char} {layout : LineLayout K}
    (indexed : layout.Indexed text) (forceWidth : Option K) :
    (layout.force forceWidth).Indexed text := by
  cases forceWidth with
  | none => exact indexed
  | some forceWidth =>
      intro run member glyph found
      rcases LineLayout.mem_forceRuns member glyph found with
        ⟨original, among, unforced, there, same⟩
      rw [same]
      exact indexed original among unforced there

/-- A wrapped line without the cache: a limit keeps the first of its boundaries. -/
theorem PlatformTextSystem.exists_wrappedLineLayout (platform : PlatformTextSystem K)
    (text : String) (fontSize : K) (runs : List FontRun) (wrapWidth : Option K) :
    ∃ boundaries,
      (wrapWidth = none → boundaries = []) ∧
      (∀ width, wrapWidth = some width →
        (platform.lineLayout text fontSize runs none).computeWrapBoundaries text.toList width
          none = some boundaries) ∧
      ∀ maxLines, platform.wrappedLineLayout text fontSize runs wrapWidth maxLines =
        some {
          unwrappedLayout := platform.lineLayout text fontSize runs none
          wrapBoundaries := limitLines maxLines boundaries
          wrapWidth } := by
  cases wrapWidth with
  | none =>
      refine ⟨[], fun _ => rfl, ?_, fun maxLines => by simp [wrappedLineLayout]⟩
      intro width present
      cases present
  | some width =>
      rcases LineLayout.computeWrapBoundaries_limit
        ((platform.indexed text fontSize runs).force none) width with
        ⟨boundaries, unlimited, limited⟩
      refine ⟨boundaries, ?_, ?_, ?_⟩
      · intro absent
        cases absent
      · intro other same
        cases same
        exact unlimited
      · intro maxLines
        simp only [wrappedLineLayout, lineLayout, limited maxLines]
        rfl

end Gpui
