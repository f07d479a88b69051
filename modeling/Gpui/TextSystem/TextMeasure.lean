import Gpui.Library.Transition
import Gpui.TextSystem.ShapeText
import Gpui.TextSystem.TextPosition

/-!
# Measuring a text

The layout engine measures a text as often as it likes, with the width that it knows or the
space that there is, and a text layout that is used again is measured for a style and runs
that may be others.  The measurement of the last time is returned again for the same style
and runs at the same wrap width, and to those who do not ask for a width.

Neither the text nor what it was truncated to is compared.  Lengths are exact.
-/

namespace Gpui

open Library

inductive AbsoluteLength (K : Type) where
  | pixels (length : K)
  | rems (length : K)
deriving DecidableEq

def AbsoluteLength.toPixels {K : Type} [Mul K] (remSize : K) : AbsoluteLength K → K
  | .pixels length => length
  | .rems length => length * remSize

inductive DefiniteLength (K : Type) where
  | absolute (length : AbsoluteLength K)
  | fraction (ratio : K)
deriving DecidableEq

def DefiniteLength.toPixels {K : Type} [Mul K] (baseSize : AbsoluteLength K) (remSize : K) :
    DefiniteLength K → K
  | .absolute length => length.toPixels remSize
  | .fraction ratio => baseSize.toPixels remSize * ratio

inductive AvailableSpace (K : Type) where
  | definite (length : K)
  | minContent
  | maxContent
deriving DecidableEq

inductive WhiteSpace where
  | normal
  | nowrap
deriving DecidableEq, Repr

inductive TextOverflow where
  | truncate (suffix : String)
deriving DecidableEq, Repr

inductive TextAlign where
  | left
  | center
  | right
deriving DecidableEq, Repr

structure TextStyle (K F D : Type) where
  fontSize : AbsoluteLength K
  lineHeight : DefiniteLength K
  font : F
  /-- The colors, the underline and the strikethrough. -/
  decoration : D
  whiteSpace : WhiteSpace
  textOverflow : Option TextOverflow
  textAlign : TextAlign
  lineClamp : Option UInt64
deriving DecidableEq

def TextStyle.toRun {K F D : Type} (self : TextStyle K F D) (len : Nat) : TextRun F D :=
  ⟨len, self.font, self.decoration⟩

/-- What a measure closure holds from `layout`, and the widths it is called with. -/
structure MeasureCall (K F D : Type) where
  text : String
  runs : Option (List (TextRun F D))
  textStyle : TextStyle K F D
  remSize : K
  knownWidth : Option K
  availableWidth : AvailableSpace K
deriving DecidableEq

namespace MeasureCall

variable {K F D : Type}

def textRuns (call : MeasureCall K F D) : List (TextRun F D) :=
  call.runs.getD [call.textStyle.toRun call.text.utf8ByteSize]

def wrapWidth (call : MeasureCall K F D) : Option K :=
  match call.textStyle.whiteSpace with
  | .normal =>
      call.knownWidth.or
        (match call.availableWidth with
        | .definite x => some x
        | _ => none)
  | .nowrap => none

variable [Field K]

/-- The width to truncate the text to, and what to put where it is truncated. -/
def truncation (call : MeasureCall K F D) : Option K × String :=
  match call.textStyle.textOverflow with
  | some (.truncate suffix) =>
      (call.knownWidth.or
        (match call.availableWidth with
        | .definite x =>
            match call.textStyle.lineClamp with
            | some maxLines => some (x * maxLines.toNat)
            | none => some x
        | _ => none), suffix)
  | none => (none, "")

end MeasureCall

namespace TextStyle

variable {K F D : Type} [Mul K]

def fontPixels (self : TextStyle K F D) (remSize : K) : K :=
  self.fontSize.toPixels remSize

def linePixels (self : TextStyle K F D) (remSize : K) : K :=
  self.lineHeight.toPixels (.pixels (self.fontPixels remSize)) remSize

end TextStyle

structure TextLayoutInner (K F D : Type) where
  len : Nat
  lines : List (WrappedLine K D)
  lineHeight : K
  wrapWidth : Option K
  size : Option (Size K)
  textStyle : TextStyle K F D
  remSize : K
  runs : List (TextRun F D)
deriving DecidableEq

section

variable {K F D : Type} [Field K] [LinearOrder K]

/-- The width of a line, whether or not it was wrapped. -/
def WrappedLineLayout.totalWidth (self : WrappedLineLayout K) : K :=
  match self.wrapWidth with
  | some wrapWidth => min wrapWidth self.unwrappedLayout.width
  | none => self.unwrappedLayout.width

variable [FloorRing K]

/-- The loop over the lines. -/
def linesSize (lineHeight : K) (lines : List (WrappedLine K D)) : Size K :=
  lines.foldl (fun size line =>
    { width := (⌈max size.width line.layout.totalWidth⌉ : K)
      height := size.height + line.layout.height lineHeight }) ⟨0, 0⟩

variable [DecidableEq D]

/-- What a text and its runs measure, when they have been truncated. -/
def TextSystem.measured (system : TextSystem K F) (textStyle : TextStyle K F D) (remSize : K)
    (wrapWidth : Option K) (truncated : String × List (TextRun F D)) :
    Option (TextLayoutInner K F D) := do
  let lines ← system.shapeText truncated.1 (textStyle.fontPixels remSize) truncated.2 wrapWidth
    textStyle.lineClamp
  let lineHeight := textStyle.linePixels remSize
  return {
    len := truncated.1.utf8ByteSize
    lines
    lineHeight
    wrapWidth
    size := some (linesSize lineHeight lines)
    textStyle
    remSize
    runs := truncated.2 }

end

/-- The wrappers that are not in use. -/
abbrev WrapperPool {K : Type} (platform : PlatformTextSystem K) :=
  (font : FontIdWithSize K) → List (LineWrapper platform font)

/-- What a text layout has measured, in the text system. -/
structure MeasuredLayout {K F : Type} (D : Type) (system : TextSystem K F) where
  measurement : Option (TextLayoutInner K F D)
  wrapperPool : WrapperPool system.platform
  /-- The call that made the measurement, which no code reads. -/
  measuredBy : Option (MeasureCall K F D)

namespace MeasuredLayout

variable {K F D : Type} {system : TextSystem K F}

/-- A fresh text layout. -/
def fresh (wrapperPool : WrapperPool system.platform) : MeasuredLayout D system where
  measurement := none
  wrapperPool := wrapperPool
  measuredBy := none

variable [DecidableEq K] [DecidableEq F] [DecidableEq D]

/-- The size that is returned without measuring. -/
def reused (self : MeasuredLayout D system) (call : MeasureCall K F D) (wrapWidth : Option K) :
    Option (Size K) :=
  match self.measurement with
  | some textLayout =>
      if textLayout.textStyle = call.textStyle ∧ textLayout.remSize = call.remSize ∧
          textLayout.runs = call.textRuns ∧
          (wrapWidth = none ∨ wrapWidth = textLayout.wrapWidth) then
        textLayout.size
      else none
  | none => none

theorem reused_eq_some {self : MeasuredLayout D system} {call : MeasureCall K F D}
    {wrapWidth : Option K} {size : Size K} (reuses : self.reused call wrapWidth = some size) :
    ∃ textLayout, self.measurement = some textLayout ∧ textLayout.size = some size ∧
      textLayout.textStyle = call.textStyle ∧ textLayout.remSize = call.remSize ∧
      (wrapWidth = none ∨ wrapWidth = textLayout.wrapWidth) := by
  cases there : self.measurement with
  | none =>
      simp only [reused, there] at reuses
      cases reuses
  | some textLayout =>
      simp only [reused, there] at reuses
      rcases Option.ite_none_right_eq_some.mp reuses with ⟨⟨style, rem, _, wraps⟩, sized⟩
      exact ⟨textLayout, rfl, sized, style, rem, wraps⟩

end MeasuredLayout

section

variable {K F D : Type} {system : TextSystem K F} [Field K] [LinearOrder K] [FloorRing K]

/-- Truncate the text with a wrapper of the pool, to which it returns. -/
def MeasureCall.truncate (call : MeasureCall K F D) (pool : WrapperPool system.platform) :
    (String × List (TextRun F D)) × WrapperPool system.platform :=
  let font : FontIdWithSize K :=
    ⟨system.resolveFont call.textStyle.font, call.textStyle.fontPixels call.remSize⟩
  let wrapper := (pool font).getLast?.getD .new
  match call.truncation with
  | (some truncateWidth, suffix) =>
      let (truncated, wrapper) := wrapper.truncateLine call.text truncateWidth suffix call.textRuns
      (truncated, Function.update pool font ((pool font).dropLast ++ [wrapper]))
  | (none, _) =>
      ((call.text, call.textRuns), Function.update pool font ((pool font).dropLast ++ [wrapper]))

/-- The text and the runs that the call shapes, which is the same with any wrapper. -/
def MeasureCall.truncated (system : TextSystem K F) (call : MeasureCall K F D) :
    String × List (TextRun F D) :=
  (call.truncate (fun _ => [] : WrapperPool system.platform)).1

theorem MeasureCall.truncate_fst (call : MeasureCall K F D) (pool : WrapperPool system.platform) :
    (call.truncate pool).1 = call.truncated system := by
  rcases width : call.truncation with ⟨_ | truncateWidth, suffix⟩
  · simp only [truncated, truncate, width]
  · simp only [truncated, truncate, width]
    exact LineWrapper.truncateLine_fst _ _ _ _ _ _

namespace MeasuredLayout

variable [DecidableEq F] [DecidableEq D]

/-- The measure closure, from where it has the wrap width. -/
def measureAt (self : MeasuredLayout D system) (call : MeasureCall K F D)
    (wrapWidth : Option K) : Option (Size K × MeasuredLayout D system) :=
  match self.reused call wrapWidth with
  | some size => some (size, self)
  | none => do
      let (truncated, wrapperPool) := call.truncate self.wrapperPool
      let textLayout ← system.measured call.textStyle call.remSize wrapWidth truncated
      let size ← textLayout.size
      return (size, { measurement := some textLayout, wrapperPool, measuredBy := some call })

def measure (self : MeasuredLayout D system) (call : MeasureCall K F D) :
    Option (Size K × MeasuredLayout D system) :=
  self.measureAt call call.wrapWidth

def step (self : MeasuredLayout D system) (call : MeasureCall K F D) :
    Option (MeasuredLayout D system) :=
  (self.measure call).map Prod.snd

/-! ## What a call returns -/

/-- If the call would return what was measured before, that was measured for what the call
would shape. -/
def SameText (self : MeasuredLayout D system) (call : MeasureCall K F D) : Prop :=
  ∀ other, self.measuredBy = some other → self.reused call call.wrapWidth ≠ none →
    other.truncated system = call.truncated system

/-- The measurement is what a fresh text layout measures for the call that made it. -/
def Sound (self : MeasuredLayout D system) : Prop :=
  ∀ textLayout, self.measurement = some textLayout →
    ∃ other, self.measuredBy = some other ∧
      system.measured other.textStyle other.remSize other.wrapWidth (other.truncated system) =
        some textLayout

omit [DecidableEq F] in
theorem exists_measured (system : TextSystem K F) (textStyle : TextStyle K F D) (remSize : K)
    (wrapWidth : Option K) (truncated : String × List (TextRun F D)) :
    ∃ textLayout size, system.measured textStyle remSize wrapWidth truncated = some textLayout ∧
      textLayout.size = some size ∧ textLayout.wrapWidth = wrapWidth ∧
      textLayout.textStyle = textStyle ∧ textLayout.remSize = remSize := by
  rcases system.exists_shapeText truncated.1 (textStyle.fontPixels remSize) truncated.2 wrapWidth
    textStyle.lineClamp with ⟨lines, shapes⟩
  rw [TextSystem.measured, shapes]
  exact ⟨_, _, rfl, rfl, rfl, rfl, rfl⟩

/-- A call that cannot return what is there measures as if nothing was. -/
theorem measureAt_of_reused_eq_none {self : MeasuredLayout D system} {call : MeasureCall K F D}
    {wrapWidth : Option K} (misses : self.reused call wrapWidth = none) :
    ∃ textLayout size pool,
      system.measured call.textStyle call.remSize wrapWidth (call.truncated system) =
        some textLayout ∧ textLayout.size = some size ∧
      self.measureAt call wrapWidth = some (size, ⟨some textLayout, pool, some call⟩) := by
  rcases exists_measured system call.textStyle call.remSize wrapWidth (call.truncated system) with
    ⟨textLayout, size, measures, sized, _⟩
  refine ⟨textLayout, size, (call.truncate self.wrapperPool).2, measures, sized, ?_⟩
  rw [measureAt, misses]
  dsimp only
  rw [call.truncate_fst, measures]
  simp [sized]

theorem Sound.measureAt {self : MeasuredLayout D system} (sound : self.Sound)
    {call : MeasureCall K F D} {size : Size K} {next : MeasuredLayout D system}
    (measures : self.measureAt call call.wrapWidth = some (size, next)) : next.Sound := by
  cases reuses : self.reused call call.wrapWidth with
  | some found =>
      rw [MeasuredLayout.measureAt, reuses] at measures
      rcases Option.some.inj measures with ⟨⟩
      exact sound
  | none =>
      rcases measureAt_of_reused_eq_none reuses with ⟨textLayout, _, _, measured, _, result⟩
      rw [result] at measures
      rcases Option.some.inj measures with ⟨⟩
      intro other same
      rcases Option.some.inj same with rfl
      exact ⟨call, rfl, measured⟩

theorem run_sound {pool : WrapperPool system.platform} {calls : List (MeasureCall K F D)}
    {last : MeasuredLayout D system}
    (run : Run step (fun _ _ => True) (fresh pool) calls last) : last.Sound := by
  apply run.invariant (fun _ state => state.Sound)
  · intro textLayout absent
    cases absent
  · intro _ state call next sound _ steps
    rcases Option.map_eq_some_iff.mp steps with ⟨⟨size, after⟩, measures, rfl⟩
    exact sound.measureAt measures

/-- The text system of the tests, with a single font. -/
def noopSystem : TextSystem ℚ Unit where
  platform := NoopTextSystem.platform
  resolveFont _ := 0

/-- A text in a style that wraps it. -/
def noopCall (text : String) (availableWidth : AvailableSpace ℚ) : MeasureCall ℚ Unit Unit where
  text := text
  runs := none
  textStyle :=
    { fontSize := .pixels 10, lineHeight := .fraction 2, font := (), decoration := ()
      whiteSpace := .normal, textOverflow := none, textAlign := .left, lineClamp := none }
  remSize := 16
  knownWidth := none
  availableWidth := availableWidth

def noPool : WrapperPool noopSystem.platform :=
  fun _ => []

/-- The size and the lines that a call returns and leaves after another. -/
def measuredAfter (first second : MeasureCall ℚ Unit Unit) :
    Option (Size ℚ × Option (List (WrappedLine ℚ Unit))) := do
  let last ← (fresh noPool : MeasuredLayout Unit noopSystem).step first
  let (size, after) ← last.measure second
  return (size, after.measurement.map TextLayoutInner.lines)

def measuredFresh (call : MeasureCall ℚ Unit Unit) :
    Option (Size ℚ × Option (List (WrappedLine ℚ Unit))) := do
  let (size, after) ← (fresh noPool : MeasuredLayout Unit noopSystem).measure call
  return (size, after.measurement.map TextLayoutInner.lines)

end MeasuredLayout

end

end Gpui
