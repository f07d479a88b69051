import Gpui.Geometry

/-!
# Lines of shaped text

A platform lays out a line of text as runs of glyphs; where the line is too long for a
width, `computeWrapBoundaries` says at which glyphs it continues on the next row.
-/

namespace Gpui

abbrev FontId := UInt64

abbrev GlyphId := UInt32

/-- A single glyph, ready to paint. -/
structure ShapedGlyph (K : Type) where
  id : GlyphId
  position : Point K
  /-- The byte of the text it stands for. -/
  index : Nat
  isEmoji : Bool
deriving DecidableEq

/-- A run of text that has been shaped. -/
structure ShapedRun (K : Type) where
  fontId : FontId
  glyphs : List (ShapedGlyph K)
deriving DecidableEq

/-- A laid out and styled line of text. -/
structure LineLayout (K : Type) where
  fontSize : K
  width : K
  ascent : K
  descent : K
  runs : List (ShapedRun K)
  /-- The length of the line in UTF-8 bytes. -/
  len : Nat
deriving DecidableEq

/-- A boundary at which a line was wrapped. -/
structure WrapBoundary where
  runIx : Nat
  glyphIx : Nat
deriving DecidableEq, Repr

/-- A line of text that has been wrapped to fit a given width. -/
structure WrappedLineLayout (K : Type) where
  unwrappedLayout : LineLayout K
  wrapBoundaries : List WrapBoundary
  wrapWidth : Option K
deriving DecidableEq

namespace WrapBoundary

/-- The derived order. -/
def lt (self other : WrapBoundary) : Bool :=
  self.runIx < other.runIx || self.runIx = other.runIx && self.glyphIx < other.glyphIx

end WrapBoundary

namespace LineWrapper

/-- Part of a word that should not be wrapped. -/
def isWordChar (c : Char) : Bool :=
  c.isAlphanum ||
    ('\u00C0' ≤ c && c ≤ '\u00FF') ||
    ('\u0100' ≤ c && c ≤ '\u017F') ||
    ('\u0180' ≤ c && c ≤ '\u024F') ||
    ('\u0400' ≤ c && c ≤ '\u04FF') ||
    ['-', '_', '.', '\u0027', '$', '%', '@', '#', '^', '~', ',', '=', ':'].contains c ||
    c = '⋯'

end LineWrapper

/-- `text[index..].chars().next().unwrap()`, which fails at the end of the text and
between the bytes of a character. -/
def characterAt : List Char → Nat → Option Char
  | [], _ => none
  | c :: text, index =>
      if index = 0 then some c
      else if index < c.utf8Size then none
      else characterAt text (index - c.utf8Size)

/-- A glyph with its place among the runs, its character and its position. -/
structure WrapGlyph (K : Type) where
  boundary : WrapBoundary
  character : Option Char
  x : K

/-- The variables of the loop over the glyphs. -/
structure WrapState (K : Type) where
  boundaries : List WrapBoundary
  firstNonWhitespaceIx : Option WrapBoundary
  lastCandidateIx : Option WrapBoundary
  lastCandidateX : K
  lastBoundary : WrapBoundary
  lastBoundaryX : K
  prevCh : Char

namespace WrapState

variable {K : Type}

def new [Zero K] : WrapState K where
  boundaries := []
  firstNonWhitespaceIx := none
  lastCandidateIx := none
  lastCandidateX := 0
  lastBoundary := ⟨0, 0⟩
  lastBoundaryX := 0
  prevCh := '\x00'

/-- Note where the line can be broken, and where it begins. -/
def noteCandidate (state : WrapState K) (boundary : WrapBoundary) (ch : Char) (x : K) :
    WrapState K :=
  let state :=
    if LineWrapper.isWordChar ch then
      if state.prevCh = ' ' && ch ≠ ' ' && state.firstNonWhitespaceIx.isSome then
        { state with lastCandidateIx := some boundary, lastCandidateX := x }
      else state
    else
      if ch ≠ ' ' && state.firstNonWhitespaceIx.isSome then
        { state with lastCandidateIx := some boundary, lastCandidateX := x }
      else state
  if ch ≠ ' ' && state.firstNonWhitespaceIx.isNone then
    { state with firstNonWhitespaceIx := some boundary }
  else state

/-- Break the line at the last candidate, if there is one, and here otherwise. -/
def breakLine (state : WrapState K) (boundary : WrapBoundary) (x : K) : WrapState K :=
  match state.lastCandidateIx with
  | some lastCandidateIx =>
      { state with
        lastCandidateIx := none
        lastBoundary := lastCandidateIx
        lastBoundaryX := state.lastCandidateX
        boundaries := state.boundaries ++ [lastCandidateIx] }
  | none =>
      { state with
        lastBoundary := boundary
        lastBoundaryX := x
        boundaries := state.boundaries ++ [boundary] }

end WrapState

/-- `boundaries.len() >= max_lines - 1`, which wraps at zero. -/
def reachesMaxLines (maxLines : Option UInt64) (boundaries : List WrapBoundary) : Bool :=
  match maxLines with
  | some maxLines => (maxLines - 1).toNat ≤ boundaries.length
  | none => false

namespace LineLayout

variable {K : Type}

/-- The glyphs of all runs. -/
def wrapGlyphs (self : LineLayout K) (text : List Char) : List (WrapGlyph K) :=
  (self.runs.mapIdx fun runIx run =>
    run.glyphs.mapIdx fun glyphIx glyph =>
      { boundary := ⟨runIx, glyphIx⟩
        character := characterAt text glyph.index
        x := glyph.position.x }).flatten

variable [Field K] [LinearOrder K]

/-- `glyphs.peek().map_or(self.width, ..)`: peeking looks for the character as well. -/
def peekX (width : K) : List (WrapGlyph K) → Option K
  | [] => some width
  | glyph :: _ => glyph.character.map fun _ => glyph.x

/-- The loop over the glyphs, with `None` for a glyph that starts no character. -/
def wrapLoop (lineWidth wrapWidth : K) (maxLines : Option UInt64) :
    List (WrapGlyph K) → WrapState K → Option (List WrapBoundary)
  | [], state => some state.boundaries
  | glyph :: glyphs, state =>
      match glyph.character with
      | none => none
      | some ch =>
          if ch = '\n' then wrapLoop lineWidth wrapWidth maxLines glyphs state
          else
            let state := state.noteCandidate glyph.boundary ch glyph.x
            match peekX lineWidth glyphs with
            | none => none
            | some nextX =>
                let width := nextX - state.lastBoundaryX
                if width > wrapWidth ∧ state.lastBoundary.lt glyph.boundary then
                  if reachesMaxLines maxLines state.boundaries then some state.boundaries
                  else
                    wrapLoop lineWidth wrapWidth maxLines glyphs
                      { state.breakLine glyph.boundary glyph.x with prevCh := ch }
                else
                  wrapLoop lineWidth wrapWidth maxLines glyphs { state with prevCh := ch }

def computeWrapBoundaries (self : LineLayout K) (text : List Char) (wrapWidth : K)
    (maxLines : Option UInt64) : Option (List WrapBoundary) :=
  wrapLoop self.width wrapWidth maxLines (self.wrapGlyphs text) WrapState.new

end LineLayout

/-! ## Where a limit cuts the boundaries -/

namespace WrapState

variable {K : Type}

@[simp]
theorem noteCandidate_boundaries (state : WrapState K) (boundary : WrapBoundary) (ch : Char)
    (x : K) : (state.noteCandidate boundary ch x).boundaries = state.boundaries := by
  simp only [noteCandidate]
  split_ifs
  all_goals rfl

/-- A break is one more boundary. -/
theorem breakLine_boundaries (state : WrapState K) (boundary : WrapBoundary) (x : K) :
    ∃ broken, (state.breakLine boundary x).boundaries = state.boundaries ++ [broken] := by
  cases candidate : state.lastCandidateIx with
  | none => exact ⟨boundary, by simp [breakLine, candidate]⟩
  | some lastCandidateIx => exact ⟨lastCandidateIx, by simp [breakLine, candidate]⟩

end WrapState

/-- The boundaries that a limit leaves. -/
def limitLines (maxLines : Option UInt64) (boundaries : List WrapBoundary) :
    List WrapBoundary :=
  match maxLines with
  | some maxLines => boundaries.take (maxLines - 1).toNat
  | none => boundaries

@[simp]
theorem limitLines_nil (maxLines : Option UInt64) : limitLines maxLines [] = [] := by
  cases maxLines with
  | none => rfl
  | some maxLines => exact List.take_nil

/-- Below the limit there is room for one more. -/
theorem limitLines_snoc {maxLines : Option UInt64} {boundaries : List WrapBoundary}
    (room : reachesMaxLines maxLines boundaries = false) (boundary : WrapBoundary) :
    limitLines maxLines (boundaries ++ [boundary]) = boundaries ++ [boundary] := by
  cases maxLines with
  | none => rfl
  | some maxLines =>
      have below : boundaries.length < (maxLines - 1).toNat := by
        simpa [reachesMaxLines] using room
      exact List.take_of_length_le (by simpa using below)

/-- At the limit nothing more is kept. -/
theorem limitLines_of_prefixed {maxLines : Option UInt64}
    {boundaries longer : List WrapBoundary} (extends_ : boundaries <+: longer)
    (fits : limitLines maxLines boundaries = boundaries)
    (full : reachesMaxLines maxLines boundaries = true) :
    limitLines maxLines longer = boundaries := by
  cases maxLines with
  | none => simp [reachesMaxLines] at full
  | some maxLines =>
      rcases extends_ with ⟨rest, rfl⟩
      have atLeast : (maxLines - 1).toNat ≤ boundaries.length := by
        simpa [reachesMaxLines] using full
      simp only [limitLines] at fits ⊢
      rw [List.take_append_of_le_length atLeast, fits]

/-- What a limit leaves is known from how much it leaves. -/
theorem limitLines_eq_iff_length (maxLines other : Option UInt64)
    (boundaries : List WrapBoundary) :
    limitLines maxLines boundaries = limitLines other boundaries ↔
      (limitLines maxLines boundaries).length = (limitLines other boundaries).length := by
  have isTake (limit : Option UInt64) :
      limitLines limit boundaries = boundaries.take (limitLines limit boundaries).length := by
    cases limit with
    | none => simp [limitLines]
    | some limit => simp [limitLines, List.take_eq_take_iff]
  constructor
  · intro same
    rw [same]
  · intro same
    rw [isTake maxLines, same, ← isTake other]

namespace LineLayout

variable {K : Type}

/-- Every glyph stands for a character of the text. -/
def Indexed (text : List Char) (layout : LineLayout K) : Prop :=
  ∀ run ∈ layout.runs, ∀ glyph ∈ run.glyphs, (characterAt text glyph.index).isSome

theorem Indexed.wrapGlyphs {text : List Char} {layout : LineLayout K}
    (indexed : layout.Indexed text) :
    ∀ glyph ∈ layout.wrapGlyphs text, glyph.character.isSome := by
  intro wrapGlyph member
  simp only [LineLayout.wrapGlyphs, List.mem_flatten, List.mem_mapIdx] at member
  rcases member with ⟨_, ⟨runIx, runBound, rfl⟩, member⟩
  rcases List.mem_mapIdx.mp member with ⟨glyphIx, glyphBound, rfl⟩
  exact indexed _ (List.getElem_mem runBound) _ (List.getElem_mem glyphBound)

variable [Field K] [LinearOrder K]

omit [Field K] [LinearOrder K] in
theorem exists_peekX {lineWidth : K} {glyphs : List (WrapGlyph K)}
    (indexed : ∀ glyph ∈ glyphs, glyph.character.isSome) :
    ∃ nextX, peekX lineWidth glyphs = some nextX := by
  cases glyphs with
  | nil => exact ⟨lineWidth, rfl⟩
  | cons glyph glyphs =>
      obtain ⟨ch, found⟩ := Option.isSome_iff_exists.mp (indexed glyph List.mem_cons_self)
      exact ⟨glyph.x, by simp [peekX, found]⟩

/-- The loop only adds boundaries, and with a limit it stops where the limit cuts the
boundaries it would find without one. -/
theorem wrapLoop_limit (lineWidth wrapWidth : K) (glyphs : List (WrapGlyph K))
    (state : WrapState K) (indexed : ∀ glyph ∈ glyphs, glyph.character.isSome) :
    ∃ boundaries, wrapLoop lineWidth wrapWidth none glyphs state = some boundaries ∧
      state.boundaries <+: boundaries ∧
      ∀ maxLines, limitLines maxLines state.boundaries = state.boundaries →
        wrapLoop lineWidth wrapWidth maxLines glyphs state =
          some (limitLines maxLines boundaries) := by
  induction glyphs generalizing state with
  | nil =>
      refine ⟨state.boundaries, rfl, List.prefix_rfl, ?_⟩
      intro maxLines fits
      rw [fits, wrapLoop]
  | cons glyph glyphs ih =>
      have rest := fun glyph member => indexed glyph (List.mem_cons_of_mem _ member)
      obtain ⟨ch, found⟩ := Option.isSome_iff_exists.mp (indexed glyph List.mem_cons_self)
      have peeks : ∃ nextX, peekX lineWidth glyphs = some nextX := exists_peekX rest
      rcases peeks with ⟨nextX, peeked⟩
      by_cases newline : ch = '\n'
      · simpa [wrapLoop, found, newline] using ih state rest
      · simp only [wrapLoop, found, newline, if_false, peeked,
          WrapState.noteCandidate_boundaries]
        split
        next tooLong =>
          rcases WrapState.breakLine_boundaries (state.noteCandidate glyph.boundary ch glyph.x)
            glyph.boundary glyph.x with ⟨broken, grown⟩
          rw [WrapState.noteCandidate_boundaries] at grown
          obtain ⟨boundaries, unlimited, longer, limited⟩ := ih
            { (state.noteCandidate glyph.boundary ch glyph.x).breakLine glyph.boundary glyph.x
              with prevCh := ch } rest
          simp only [grown] at longer
          have kept := (List.prefix_append state.boundaries [broken]).trans longer
          refine ⟨boundaries, by simpa [reachesMaxLines] using unlimited, kept, ?_⟩
          intro maxLines fits
          cases full : reachesMaxLines maxLines state.boundaries with
          | true => simp [limitLines_of_prefixed kept fits full]
          | false =>
              simpa using limited maxLines (by
                simpa only [grown] using limitLines_snoc full broken)
        next fitsRow =>
          simpa using ih
            { state.noteCandidate glyph.boundary ch glyph.x with prevCh := ch } rest

/-- A limit keeps the first of the boundaries there are without one. -/
theorem computeWrapBoundaries_limit {text : List Char} {layout : LineLayout K}
    (indexed : layout.Indexed text) (wrapWidth : K) :
    ∃ boundaries, layout.computeWrapBoundaries text wrapWidth none = some boundaries ∧
      ∀ maxLines, layout.computeWrapBoundaries text wrapWidth maxLines =
        some (limitLines maxLines boundaries) := by
  rcases wrapLoop_limit layout.width wrapWidth (layout.wrapGlyphs text) WrapState.new
    indexed.wrapGlyphs with ⟨boundaries, unlimited, -, limited⟩
  exact ⟨boundaries, unlimited, fun maxLines => limited maxLines (limitLines_nil maxLines)⟩

end LineLayout

end Gpui
