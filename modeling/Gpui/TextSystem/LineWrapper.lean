import Gpui.TextSystem.LineLayoutCache

/-!
# Truncating a line

A line wrapper measures a line by its characters and remembers how wide they are.  Wrappers
return to the pool of the text system and are used again for lines of the same font and
size; what they remember is what they would measure, so a line is truncated at the same
place by any of them.
-/

namespace Gpui

open Library

/-- A styled run of text. -/
structure TextRun (F D : Type) where
  /-- A number of utf8 bytes. -/
  len : Nat
  font : F
  /-- The colors, the underline and the strikethrough. -/
  decoration : D
deriving DecidableEq

structure FontIdWithSize (K : Type) where
  fontId : FontId
  fontSize : K
deriving DecidableEq

variable {K : Type}

def PlatformTextSystem.computeWidthForChar (platform : PlatformTextSystem K)
    (font : FontIdWithSize K) (c : Char) : K :=
  (platform.layoutLine (String.singleton c) font.fontSize [⟨c.utf8Size, font.fontId⟩]).width

/-- A wrapper for one font and size.  An entry of the cache comes with the proof that it is
the width of its character. -/
structure LineWrapper (platform : PlatformTextSystem K) (font : FontIdWithSize K) where
  cachedCharWidths :
    PartialMap Char fun c => {width : K // width = platform.computeWidthForChar font c}

/-- `&line[..truncate_ix]`, for the start of a character. -/
def sliceTo : List Char → Nat → List Char
  | [], _ => []
  | c :: text, index => if index < c.utf8Size then [] else c :: sliceTo text (index - c.utf8Size)

/-- The loop of `update_runs_after_truncation`. -/
def updateRunsAfterTruncation {F D : Type} (ellipsisLen : Nat) :
    Nat → List (TextRun F D) → List (TextRun F D)
  | _, [] => []
  | truncateAt, run :: runs =>
      if run.len ≤ truncateAt then
        run :: updateRunsAfterTruncation ellipsisLen (truncateAt - run.len) runs
      else [{ run with len := truncateAt + ellipsisLen }]

/-- The text and the runs that truncating at a place leaves, or not truncating. -/
def truncatedAt {F D : Type} (line truncationSuffix : String) (runs : List (TextRun F D)) :
    Option Nat → String × List (TextRun F D)
  | some truncateIx =>
      let result := String.ofList (sliceTo line.toList truncateIx) ++ truncationSuffix
      let truncateAt := result.utf8ByteSize - truncationSuffix.utf8ByteSize
      (result, updateRunsAfterTruncation truncationSuffix.utf8ByteSize truncateAt runs)
  | none => (line, runs)

namespace LineWrapper

variable {platform : PlatformTextSystem K} {font : FontIdWithSize K}

def new : LineWrapper platform font where
  cachedCharWidths := .empty

def widthForChar (self : LineWrapper platform font) (c : Char) : K × LineWrapper platform font :=
  match self.cachedCharWidths c with
  | some width => (width, self)
  | none =>
      (platform.computeWidthForChar font c,
        { cachedCharWidths := self.cachedCharWidths.insert c ⟨_, rfl⟩ })

@[simp]
theorem widthForChar_fst (self : LineWrapper platform font) (c : Char) :
    (self.widthForChar c).1 = platform.computeWidthForChar font c := by
  unfold widthForChar
  split
  next width _ => exact width.property
  next => rfl

variable [Field K]

/-- The sum of the widths of the characters of the suffix. -/
def widthForChars (width : K) :
    LineWrapper platform font → List Char → K × LineWrapper platform font
  | self, [] => (width, self)
  | self, c :: suffix =>
      let (charWidth, self) := self.widthForChar c
      widthForChars (width + charWidth) self suffix

variable [LinearOrder K] [FloorRing K]

/-- The loop over the characters, which ends with the place to truncate the line at, if it
is too wide. -/
def truncateLoop (truncateWidth suffixWidth : K) :
    LineWrapper platform font → Nat → K → Nat → List Char →
      Option Nat × LineWrapper platform font
  | self, _, _, _, [] => (none, self)
  | self, ix, width, truncateIx, c :: text =>
      let truncateIx := if width + suffixWidth < truncateWidth then ix else truncateIx
      let (charWidth, self) := self.widthForChar c
      let width := width + charWidth
      if (⌊width⌋ : K) > truncateWidth then (some truncateIx, self)
      else truncateLoop truncateWidth suffixWidth self (ix + c.utf8Size) width truncateIx text

/-- Truncate a line of text to the given width. -/
def truncateLine {F D : Type} (self : LineWrapper platform font) (line : String)
    (truncateWidth : K) (truncationSuffix : String) (runs : List (TextRun F D)) :
    (String × List (TextRun F D)) × LineWrapper platform font :=
  let (suffixWidth, self) := widthForChars 0 self truncationSuffix.toList
  let (truncateIx, self) := truncateLoop truncateWidth suffixWidth self 0 0 0 line.toList
  (truncatedAt line truncationSuffix runs truncateIx, self)

/-! ## What a wrapper remembers makes no difference -/

omit [LinearOrder K] [FloorRing K] in
theorem widthForChars_fst (self other : LineWrapper platform font) (width : K)
    (suffix : List Char) :
    (widthForChars width self suffix).1 = (widthForChars width other suffix).1 := by
  induction suffix generalizing self other width with
  | nil => rfl
  | cons c suffix ih =>
      simp only [widthForChars, widthForChar_fst]
      exact ih _ _ _

theorem truncateLoop_fst (self other : LineWrapper platform font) (truncateWidth suffixWidth : K)
    (ix : Nat) (width : K) (truncateIx : Nat) (text : List Char) :
    (truncateLoop truncateWidth suffixWidth self ix width truncateIx text).1 =
      (truncateLoop truncateWidth suffixWidth other ix width truncateIx text).1 := by
  induction text generalizing self other ix width truncateIx with
  | nil => rfl
  | cons c text ih =>
      simp only [truncateLoop, widthForChar_fst]
      split
      next => rfl
      next => exact ih _ _ _ _ _

/-- Any two wrappers for a font and size truncate a line alike. -/
theorem truncateLine_fst {F D : Type} (self other : LineWrapper platform font) (line : String)
    (truncateWidth : K) (truncationSuffix : String) (runs : List (TextRun F D)) :
    (self.truncateLine line truncateWidth truncationSuffix runs).1 =
      (other.truncateLine line truncateWidth truncationSuffix runs).1 := by
  apply congrArg (truncatedAt line truncationSuffix runs)
  rw [widthForChars_fst self other]
  exact truncateLoop_fst _ _ _ _ _ _ _ _

end LineWrapper

end Gpui
