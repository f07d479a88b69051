import Gpui.Keymap.Lexical
import Gpui.TextSystem.TextPosition

/-!
# The visual lines of a wrapped line

Boundaries divide the glyphs of a line into visual lines.  A line is broken when a glyph ends
too far from where the line starts, at the last candidate before the glyph, which is not
looked at again on the line it is moved to.
-/

namespace Gpui

namespace WrapBoundary

theorem lt_iff {self other : WrapBoundary} :
    self.lt other = true ↔
      self.runIx < other.runIx ∨ self.runIx = other.runIx ∧ self.glyphIx < other.glyphIx := by
  simp [lt]

theorem lt_irrefl (self : WrapBoundary) : ¬ self.lt self = true := by
  rw [lt_iff]
  omega

theorem zero_lt_iff {boundary : WrapBoundary} : lt ⟨0, 0⟩ boundary = true ↔ boundary ≠ ⟨0, 0⟩ := by
  rw [lt_iff, Ne, WrapBoundary.mk.injEq]
  dsimp only
  omega

end WrapBoundary

variable {K : Type}

def WrapGlyph.isWhitespace (self : WrapGlyph K) : Bool :=
  match self.character with
  | some c => Gpui.isWhitespace c
  | none => false

/-- A glyph with the x at which it ends. -/
structure EndedGlyph (K : Type) where
  glyph : WrapGlyph K
  endX : K

/-- Where the glyph before these ends, as far as the loop sees. -/
def nextX (lineWidth : K) : List (WrapGlyph K) → K
  | [] => lineWidth
  | glyph :: _ => glyph.x

def endedGlyphs (lineWidth : K) : List (WrapGlyph K) → List (EndedGlyph K)
  | [] => []
  | glyph :: glyphs => ⟨glyph, nextX lineWidth glyphs⟩ :: endedGlyphs lineWidth glyphs

/-- A visual line, with the x at which it starts. -/
structure VisualLine (K : Type) where
  startX : K
  glyphs : List (EndedGlyph K)

/-- The boundary is not that of the glyph. -/
def EndedGlyph.isBefore (boundary : WrapBoundary) (self : EndedGlyph K) : Bool :=
  self.glyph.boundary ≠ boundary

/-- The lines that the boundaries divide the glyphs into. -/
def visualLines (startX : K) (glyphs : List (EndedGlyph K)) :
    List WrapBoundary → List (VisualLine K)
  | [] => [⟨startX, glyphs⟩]
  | boundary :: boundaries =>
      let rest := glyphs.dropWhile (EndedGlyph.isBefore boundary)
      ⟨startX, glyphs.takeWhile (EndedGlyph.isBefore boundary)⟩ ::
        visualLines (match rest with
          | [] => startX
          | first :: _ => first.glyph.x) rest boundaries

section Wrap

variable [Field K] [LinearOrder K]

/-- A line of more than one glyph has its content, up to trailing whitespace, within the
width: no glyph but whitespace ends behind it. -/
def VisualLine.Fits (wrapWidth : K) (self : VisualLine K) : Prop :=
  1 < self.glyphs.length → ∀ ended ∈ self.glyphs, ended.glyph.isWhitespace = false →
    ended.endX - self.startX ≤ wrapWidth

namespace WrapState

/-- Some iteration asks whether the limit is reached; the first that does has broken nothing
before. -/
def asksLimit (lineWidth wrapWidth : K) : List (WrapGlyph K) → WrapState K → Bool
  | [], _ => false
  | glyph :: glyphs, state =>
      match glyph.character with
      | none => false
      | some ch =>
          if ch = '\n' then asksLimit lineWidth wrapWidth glyphs state
          else
            let state := state.noteCandidate glyph.boundary ch glyph.x
            if nextX lineWidth glyphs - state.lastBoundaryX > wrapWidth ∧
                state.lastBoundary.lt glyph.boundary then true
            else asksLimit lineWidth wrapWidth glyphs { state with prevCh := ch }

/-- One iteration, which ends the loop if the limit is reached. -/
def next (wrapWidth : K) (maxLines : Option UInt64) (state : WrapState K)
    (boundary : WrapBoundary) (ch : Char) (x nextX : K) : Option (WrapState K) :=
  let state := state.noteCandidate boundary ch x
  if nextX - state.lastBoundaryX > wrapWidth ∧ state.lastBoundary.lt boundary then
    if reachesMaxLines maxLines state.boundaries then none
    else some { state.breakLine boundary x with prevCh := ch }
  else some { state with prevCh := ch }

/-- A glyph ends within the width of the line it has been put on, or is whitespace, or no
later glyph but newlines ends behind the width, or the limit is reached, or it is alone on its
line. -/
def Settled (lineWidth wrapWidth : K) (maxLines : Option UInt64) (state : WrapState K)
    (ended : EndedGlyph K) (glyphs : List (WrapGlyph K)) : Prop :=
  ended.glyph.isWhitespace = true ∨ ended.endX - state.lastBoundaryX ≤ wrapWidth ∨
    (∀ later ∈ endedGlyphs lineWidth glyphs, later.glyph.character = some '\n' ∨
      later.endX - state.lastBoundaryX ≤ wrapWidth) ∨
    reachesMaxLines maxLines state.boundaries = true ∨
    (state.lastBoundary = ended.glyph.boundary ∧
      ∀ later ∈ glyphs.head?, later.character ≠ some '\n')

/-- Every glyph is settled when the loop is done with it. -/
def Settles (lineWidth wrapWidth : K) (maxLines : Option UInt64) :
    List (WrapGlyph K) → WrapState K → Prop
  | [], _ => True
  | glyph :: glyphs, state =>
      match glyph.character with
      | none => True
      | some ch =>
          if ch = '\n' then Settles lineWidth wrapWidth maxLines glyphs state
          else
            match state.next wrapWidth maxLines glyph.boundary ch glyph.x
              (nextX lineWidth glyphs) with
            | none => True
            | some next =>
                next.Settled lineWidth wrapWidth maxLines ⟨glyph, nextX lineWidth glyphs⟩ glyphs ∧
                  Settles lineWidth wrapWidth maxLines glyphs next

end WrapState

namespace LineLayout

/-- What is expected of the boundaries of a line. -/
structure WellWrapped (layout : LineLayout K) (text : List Char) (wrapWidth : K)
    (maxLines : Option UInt64) (boundaries : List WrapBoundary) : Prop where
  increasing : boundaries.Pairwise fun first second => first.lt second = true
  /-- Glyphs other than the first. -/
  glyphs : ∀ boundary ∈ boundaries,
    ∃ glyph ∈ (layout.wrapGlyphs text).tail, glyph.boundary = boundary
  limited : ∀ limit, maxLines = some limit → 1 ≤ limit →
    boundaries.length ≤ limit.toNat - 1
  noUnderflow : maxLines = some 0 →
    WrapState.new.asksLimit layout.width wrapWidth (layout.wrapGlyphs text) = false
  within : ∀ line ∈ (visualLines 0 (endedGlyphs layout.width (layout.wrapGlyphs text))
    boundaries).dropLast, line.Fits wrapWidth

/-- The line is not broken at its first glyph: it is at the start of the first run, or fits,
or is a newline, or there may be no break. -/
def FirstStays (layout : LineLayout K) (text : List Char) (wrapWidth : K)
    (maxLines : Option UInt64) : Prop :=
  match layout.wrapGlyphs text with
  | [] => True
  | first :: glyphs =>
      first.boundary = ⟨0, 0⟩ ∨ first.character = some '\n' ∨
        nextX layout.width glyphs ≤ wrapWidth ∨ maxLines = some 1

/-- When the boundaries of a line are as expected. -/
structure SettlesGlyphs (layout : LineLayout K) (text : List Char) (wrapWidth : K)
    (maxLines : Option UInt64) : Prop where
  limit : maxLines = some 0 →
    WrapState.new.asksLimit layout.width wrapWidth (layout.wrapGlyphs text) = false
  first : layout.FirstStays text wrapWidth maxLines
  settles : WrapState.new.Settles layout.width wrapWidth maxLines (layout.wrapGlyphs text)

end LineLayout

end Wrap

/-! ## Dividing glyphs -/

theorem visualLines_ne_nil (startX : K) (glyphs : List (EndedGlyph K))
    (boundaries : List WrapBoundary) : visualLines startX glyphs boundaries ≠ [] := by
  cases boundaries with
  | nil => exact List.cons_ne_nil _ _
  | cons boundary boundaries => exact List.cons_ne_nil _ _

theorem divide_at {front back : List (EndedGlyph K)} {ended : EndedGlyph K}
    (absent : ∀ other ∈ front, other.glyph.boundary ≠ ended.glyph.boundary) :
    (front ++ ended :: back).takeWhile (EndedGlyph.isBefore ended.glyph.boundary) = front ∧
      (front ++ ended :: back).dropWhile (EndedGlyph.isBefore ended.glyph.boundary) =
        ended :: back := by
  have before : ∀ other ∈ front, EndedGlyph.isBefore ended.glyph.boundary other = true :=
    fun other member => decide_eq_true (absent other member)
  have stops : EndedGlyph.isBefore ended.glyph.boundary ended ≠ true := by
    simp [EndedGlyph.isBefore]
  rw [List.takeWhile_append_of_pos before, List.dropWhile_append_of_pos before,
    List.takeWhile_cons_of_neg stops, List.dropWhile_cons_of_neg stops, List.append_nil]
  exact ⟨rfl, rfl⟩

/-- One more boundary divides the last line. -/
theorem visualLines_snoc {startX lastX : K} {glyphs front back : List (EndedGlyph K)}
    {boundaries : List WrapBoundary} {closed : List (VisualLine K)} {ended : EndedGlyph K}
    (lines : visualLines startX glyphs boundaries = closed ++ [⟨lastX, front ++ ended :: back⟩])
    (absent : ∀ other ∈ front, other.glyph.boundary ≠ ended.glyph.boundary) :
    visualLines startX glyphs (boundaries ++ [ended.glyph.boundary]) =
      closed ++ [⟨lastX, front⟩] ++ [⟨ended.glyph.x, ended :: back⟩] := by
  induction boundaries generalizing startX glyphs closed with
  | nil =>
      rw [visualLines] at lines
      rcases List.append_eq_singleton_iff.mp lines.symm with ⟨rfl, last⟩ | ⟨_, last⟩
      · rcases List.singleton_inj.mp last with ⟨⟩
        rw [List.nil_append, visualLines, (divide_at absent).1, (divide_at absent).2]
        rfl
      · exact absurd last (List.cons_ne_nil _ _)
  | cons boundary boundaries ih =>
      rw [visualLines] at lines
      cases closed with
      | nil =>
          have none := (List.cons.inj lines).2
          exact absurd none (visualLines_ne_nil _ _ _)
      | cons line closed =>
          rcases List.cons.inj lines with ⟨rfl, rest⟩
          rw [List.cons_append, visualLines, ih rest]
          rfl

/-- More boundaries leave the lines before the last one. -/
theorem visualLines_append {startX : K} {glyphs : List (EndedGlyph K)}
    {boundaries : List WrapBoundary} {closed : List (VisualLine K)} {last : VisualLine K}
    (lines : visualLines startX glyphs boundaries = closed ++ [last])
    (more : List WrapBoundary) :
    ∀ line ∈ closed, line ∈ (visualLines startX glyphs (boundaries ++ more)).dropLast := by
  induction boundaries generalizing startX glyphs closed with
  | nil =>
      rw [visualLines] at lines
      rcases List.append_eq_singleton_iff.mp lines.symm with ⟨rfl, _⟩ | ⟨_, last⟩
      · intro line member
        cases member
      · exact absurd last (List.cons_ne_nil _ _)
  | cons boundary boundaries ih =>
      rw [visualLines] at lines
      cases closed with
      | nil =>
          intro line member
          cases member
      | cons first closed =>
          rcases List.cons.inj lines with ⟨rfl, rest⟩
          rw [List.cons_append, visualLines,
            List.dropLast_cons_of_ne_nil (visualLines_ne_nil _ _ _), List.forall_mem_cons]
          exact ⟨List.mem_cons_self, fun line member =>
            List.mem_cons_of_mem _ (ih rest line member)⟩

/-! ## One iteration -/

section Iteration

variable [Field K] [LinearOrder K] {lineWidth wrapWidth : K} {maxLines : Option UInt64}
  {state next : WrapState K} {glyph : WrapGlyph K} {glyphs : List (WrapGlyph K)} {ch : Char}

omit [Field K] [LinearOrder K] in
theorem peekX_eq_nextX (indexed : ∀ glyph ∈ glyphs, glyph.character.isSome) :
    LineLayout.peekX lineWidth glyphs = some (nextX lineWidth glyphs) := by
  cases glyphs with
  | nil => rfl
  | cons glyph glyphs =>
      rcases Option.isSome_iff_exists.mp (indexed glyph List.mem_cons_self) with ⟨ch, found⟩
      rw [LineLayout.peekX, found]
      rfl

theorem wrapLoop_newline (character : glyph.character = some '\n') :
    LineLayout.wrapLoop lineWidth wrapWidth maxLines (glyph :: glyphs) state =
      LineLayout.wrapLoop lineWidth wrapWidth maxLines glyphs state := by
  simp [LineLayout.wrapLoop, character]

theorem wrapLoop_cons (indexed : ∀ glyph ∈ glyphs, glyph.character.isSome)
    (character : glyph.character = some ch) (visible : ch ≠ '\n') :
    LineLayout.wrapLoop lineWidth wrapWidth maxLines (glyph :: glyphs) state =
      match state.next wrapWidth maxLines glyph.boundary ch glyph.x (nextX lineWidth glyphs) with
      | none => some state.boundaries
      | some next => LineLayout.wrapLoop lineWidth wrapWidth maxLines glyphs next := by
  rw [LineLayout.wrapLoop, character]
  dsimp only
  rw [if_neg visible, peekX_eq_nextX indexed, WrapState.next]
  dsimp only
  rw [WrapState.noteCandidate_boundaries]
  split_ifs <;> rfl

namespace WrapState

theorem settles_newline (character : glyph.character = some '\n') :
    state.Settles lineWidth wrapWidth maxLines (glyph :: glyphs) ↔
      state.Settles lineWidth wrapWidth maxLines glyphs := by
  simp [Settles, character]

theorem settles_cons (character : glyph.character = some ch) (visible : ch ≠ '\n') :
    state.Settles lineWidth wrapWidth maxLines (glyph :: glyphs) ↔
      match state.next wrapWidth maxLines glyph.boundary ch glyph.x (nextX lineWidth glyphs) with
      | none => True
      | some next =>
          next.Settled lineWidth wrapWidth maxLines ⟨glyph, nextX lineWidth glyphs⟩ glyphs ∧
            next.Settles lineWidth wrapWidth maxLines glyphs := by
  rw [Settles, character]
  dsimp only
  rw [if_neg visible]

omit [Field K] [LinearOrder K] in
@[simp]
theorem noteCandidate_lastBoundary (state : WrapState K) (boundary : WrapBoundary) (ch : Char)
    (x : K) :
    (state.noteCandidate boundary ch x).lastBoundary = state.lastBoundary := by
  simp only [noteCandidate]
  split_ifs
  all_goals rfl

omit [Field K] [LinearOrder K] in
@[simp]
theorem noteCandidate_lastBoundaryX (state : WrapState K) (boundary : WrapBoundary) (ch : Char)
    (x : K) :
    (state.noteCandidate boundary ch x).lastBoundaryX = state.lastBoundaryX := by
  simp only [noteCandidate]
  split_ifs
  all_goals rfl

omit [Field K] [LinearOrder K] in
/-- The glyph is the last candidate, or the last candidate is as before. -/
theorem noteCandidate_candidate (state : WrapState K) (boundary : WrapBoundary) (ch : Char)
    (x : K) :
    ((state.noteCandidate boundary ch x).lastCandidateIx = some boundary ∧
        (state.noteCandidate boundary ch x).lastCandidateX = x) ∨
      (state.noteCandidate boundary ch x).lastCandidateIx = state.lastCandidateIx ∧
        (state.noteCandidate boundary ch x).lastCandidateX = state.lastCandidateX := by
  simp only [noteCandidate]
  split_ifs
  all_goals first | exact Or.inl ⟨rfl, rfl⟩ | exact Or.inr ⟨rfl, rfl⟩

omit [Field K] [LinearOrder K] in
/-- Before anything but whitespace there is no candidate. -/
theorem noteCandidate_first (none : state.firstNonWhitespaceIx = none) (boundary : WrapBoundary)
    (x : K) : (state.noteCandidate boundary ch x).lastCandidateIx = state.lastCandidateIx := by
  simp only [noteCandidate, none]
  split_ifs
  all_goals first | rfl | simp_all

/-- The line is broken, where it ends too far, or goes on. -/
theorem next_eq_some {boundary : WrapBoundary} {x endX : K}
    (steps : state.next wrapWidth maxLines boundary ch x endX = some next) :
    (¬ (endX - state.lastBoundaryX > wrapWidth ∧ state.lastBoundary.lt boundary = true) ∧
        next = { state.noteCandidate boundary ch x with prevCh := ch }) ∨
      (endX - state.lastBoundaryX > wrapWidth ∧ state.lastBoundary.lt boundary = true ∧
        reachesMaxLines maxLines state.boundaries = false ∧
        next = { (state.noteCandidate boundary ch x).breakLine boundary x with prevCh := ch }) := by
  rw [WrapState.next] at steps
  split_ifs at steps with tooWide reaches
  · rw [noteCandidate_lastBoundary, noteCandidate_lastBoundaryX] at tooWide
    rw [noteCandidate_boundaries] at reaches
    exact Or.inr ⟨tooWide.1, tooWide.2, Bool.eq_false_iff.mpr reaches,
      (Option.some.inj steps).symm⟩
  · rw [noteCandidate_lastBoundary, noteCandidate_lastBoundaryX] at tooWide
    exact Or.inl ⟨tooWide, (Option.some.inj steps).symm⟩

theorem next_eq_none {boundary : WrapBoundary} {x endX : K}
    (ends : state.next wrapWidth maxLines boundary ch x endX = none) :
    reachesMaxLines maxLines state.boundaries = true := by
  rw [WrapState.next] at ends
  simp only [noteCandidate_boundaries] at ends
  split_ifs at ends with _ reaches
  exact reaches

end WrapState

end Iteration

/-! ## The open line -/

/-- How far a line has been wrapped: the glyphs of its last line, of which the first was not
broken at, and those that follow. -/
structure Wrapping [Zero K] [LE K] (lineWidth : K) (all : List (EndedGlyph K))
    (state : WrapState K) (closed : List (VisualLine K)) (first : EndedGlyph K)
    (line : List (EndedGlyph K)) (rest : List (WrapGlyph K)) : Prop where
  lines : visualLines 0 all state.boundaries =
    closed ++ [⟨state.lastBoundaryX, first :: line ++ endedGlyphs lineWidth rest⟩]
  places : (state.boundaries ++
    (line.map EndedGlyph.glyph ++ rest).map WrapGlyph.boundary).Sublist
      (all.tail.map fun ended => ended.glyph.boundary)
  increasing : (line.map EndedGlyph.glyph ++ rest).Pairwise fun before after =>
    before.boundary.lt after.boundary = true ∧ before.x ≤ after.x
  behindFirst : ∀ later ∈ line.map EndedGlyph.glyph ++ rest,
    first.glyph.boundary.lt later.boundary = true
  behind : ∀ later ∈ line.map EndedGlyph.glyph ++ rest,
    state.lastBoundary.lt later.boundary = true ∧ state.lastBoundaryX ≤ later.x
  ended : ∀ ended ∈ first :: line, ∀ later ∈ rest, ended.endX ≤ later.x
  candidate : ∀ boundary, state.lastCandidateIx = some boundary →
    ∃ front ended back, line = front ++ ended :: back ∧ ended.glyph.boundary = boundary ∧
      ended.glyph.x = state.lastCandidateX

namespace Wrapping

variable [Field K] [LinearOrder K] {lineWidth wrapWidth : K} {maxLines : Option UInt64}
  {all : List (EndedGlyph K)} {state next : WrapState K} {closed : List (VisualLine K)}
  {first : EndedGlyph K} {line : List (EndedGlyph K)} {glyph : WrapGlyph K}
  {rest : List (WrapGlyph K)} {ch : Char}

omit [Field K] in
theorem nextX_le {glyphs : List (WrapGlyph K)}
    (increasing : glyphs.Pairwise fun before after =>
      before.boundary.lt after.boundary = true ∧ before.x ≤ after.x) :
    ∀ later ∈ glyphs, nextX lineWidth glyphs ≤ later.x := by
  cases glyphs with
  | nil =>
      intro later member
      cases member
  | cons glyph glyphs =>
      rw [List.pairwise_cons] at increasing
      rw [List.forall_mem_cons]
      exact ⟨le_rfl, fun later member => (increasing.1 later member).2⟩

/-- A glyph is put on the open line. -/
theorem put (wrapping : Wrapping lineWidth all state closed first line (glyph :: rest))
    (boundaries : next.boundaries = state.boundaries)
    (lastBoundary : next.lastBoundary = state.lastBoundary)
    (lastBoundaryX : next.lastBoundaryX = state.lastBoundaryX)
    (candidate : (next.lastCandidateIx = some glyph.boundary ∧ next.lastCandidateX = glyph.x) ∨
      next.lastCandidateIx = state.lastCandidateIx ∧
        next.lastCandidateX = state.lastCandidateX) :
    Wrapping lineWidth all next closed first (line ++ [⟨glyph, nextX lineWidth rest⟩]) rest := by
  have together : (line ++ [(⟨glyph, nextX lineWidth rest⟩ : EndedGlyph K)]).map
      EndedGlyph.glyph ++ rest = line.map EndedGlyph.glyph ++ glyph :: rest := by
    simp
  constructor
  · rw [boundaries, lastBoundaryX, wrapping.lines, endedGlyphs]
    simp
  · rw [together, boundaries]
    exact wrapping.places
  · rw [together]
    exact wrapping.increasing
  · rw [together]
    exact wrapping.behindFirst
  · rw [together, lastBoundary, lastBoundaryX]
    exact wrapping.behind
  · have increasing := wrapping.increasing
    rw [List.pairwise_append, List.pairwise_cons] at increasing
    intro ended member later among
    rw [← List.cons_append, List.mem_append, List.mem_singleton] at member
    rcases member with earlier | rfl
    · exact wrapping.ended ended earlier later (List.mem_cons_of_mem _ among)
    · exact nextX_le increasing.2.1.2 later among
  · intro boundary isCandidate
    rcases candidate with ⟨isGlyph, x⟩ | ⟨same, sameX⟩
    · rw [isGlyph] at isCandidate
      exact ⟨line, ⟨glyph, nextX lineWidth rest⟩, [], rfl, Option.some.inj isCandidate, x.symm⟩
    · rw [same] at isCandidate
      rcases wrapping.candidate boundary isCandidate with ⟨front, ended, back, rfl, place, x⟩
      exact ⟨front, ended, back ++ [⟨glyph, nextX lineWidth rest⟩], by simp, place,
        x.trans sameX.symm⟩

/-- The open line is broken at one of its glyphs. -/
theorem divide {front back : List (EndedGlyph K)} {ended : EndedGlyph K}
    (wrapping : Wrapping lineWidth all state closed first (front ++ ended :: back) rest)
    (boundaries : next.boundaries = state.boundaries ++ [ended.glyph.boundary])
    (lastBoundary : next.lastBoundary = ended.glyph.boundary)
    (lastBoundaryX : next.lastBoundaryX = ended.glyph.x)
    (candidate : next.lastCandidateIx = none) :
    Wrapping lineWidth all next (closed ++ [⟨state.lastBoundaryX, first :: front⟩]) ended back
      rest := by
  have together : (front ++ ended :: back).map EndedGlyph.glyph ++ rest =
      front.map EndedGlyph.glyph ++ ended.glyph :: (back.map EndedGlyph.glyph ++ rest) := by
    simp
  have increasing := wrapping.increasing
  rw [together, List.pairwise_append, List.pairwise_cons] at increasing
  rcases increasing with ⟨_, ⟨fromEnded, fromBack⟩, fromFront⟩
  constructor
  · rw [boundaries, lastBoundaryX]
    apply visualLines_snoc
    · rw [wrapping.lines]
      simp
    · intro other member same
      have behind := wrapping.behindFirst ended.glyph (by simp)
      rw [← same] at behind
      rcases List.mem_cons.mp member with rfl | among
      · exact WrapBoundary.lt_irrefl _ behind
      · have less := (fromFront other.glyph (List.mem_map_of_mem among) ended.glyph
          List.mem_cons_self).1
        rw [← same] at less
        exact WrapBoundary.lt_irrefl _ less
  · have places := wrapping.places
    rw [together] at places
    rw [boundaries]
    refine List.Sublist.trans ?_ places
    rw [List.append_assoc]
    apply List.Sublist.append_left
    have fromHere : [ended.glyph.boundary] ++
        (back.map EndedGlyph.glyph ++ rest).map WrapGlyph.boundary =
          (ended.glyph :: (back.map EndedGlyph.glyph ++ rest)).map WrapGlyph.boundary := rfl
    rw [fromHere]
    exact (List.sublist_append_right _ _).map _
  · exact fromBack
  · intro later member
    exact (fromEnded later member).1
  · intro later member
    rw [lastBoundary, lastBoundaryX]
    exact fromEnded later member
  · intro other member
    apply wrapping.ended other
    rcases List.mem_cons.mp member with rfl | among
    · simp
    · simp [among]
  · intro boundary isCandidate
    rw [candidate] at isCandidate
    cases isCandidate

/-- The open line has been broken: at the glyph, if there was no candidate. -/
structure Broken (lineWidth : K) (all : List (EndedGlyph K)) (state next : WrapState K)
    (closed : List (VisualLine K)) (first : EndedGlyph K) (line : List (EndedGlyph K))
    (glyph : WrapGlyph K) (rest : List (WrapGlyph K)) (front : List (EndedGlyph K))
    (ended : EndedGlyph K) (back : List (EndedGlyph K)) : Prop where
  split : line ++ [⟨glyph, nextX lineWidth rest⟩] = front ++ ended :: back
  atGlyph : state.lastCandidateIx = none → front = line
  boundaries : next.boundaries = state.boundaries ++ [ended.glyph.boundary]
  lastBoundary : next.lastBoundary = ended.glyph.boundary
  lastBoundaryX : next.lastBoundaryX = ended.glyph.x
  noCandidate : next.lastCandidateIx = none
  wrapping : Wrapping lineWidth all next (closed ++ [⟨state.lastBoundaryX, first :: front⟩]) ended
    back rest

theorem exists_broken (wrapping : Wrapping lineWidth all state closed first line (glyph :: rest)) :
    ∃ front ended back, Broken lineWidth all state
      { (state.noteCandidate glyph.boundary ch glyph.x).breakLine glyph.boundary glyph.x with
        prevCh := ch } closed first line glyph rest front ended back := by
  have noted : Wrapping lineWidth all (state.noteCandidate glyph.boundary ch glyph.x) closed first
      (line ++ [⟨glyph, nextX lineWidth rest⟩]) rest :=
    wrapping.put (WrapState.noteCandidate_boundaries ..) (WrapState.noteCandidate_lastBoundary ..)
      (WrapState.noteCandidate_lastBoundaryX ..) (WrapState.noteCandidate_candidate ..)
  have atGlyph : ∀ broken : WrapState K,
      broken.boundaries = state.boundaries ++ [glyph.boundary] →
      broken.lastBoundary = glyph.boundary → broken.lastBoundaryX = glyph.x →
      broken.lastCandidateIx = none →
      Broken lineWidth all state broken closed first line glyph rest line
        ⟨glyph, nextX lineWidth rest⟩ [] := by
    intro broken boundaries lastBoundary lastBoundaryX noCandidate
    refine ⟨rfl, fun _ => rfl, boundaries, lastBoundary, lastBoundaryX, noCandidate, ?_⟩
    rw [← WrapState.noteCandidate_lastBoundaryX state glyph.boundary ch glyph.x]
    apply noted.divide _ lastBoundary lastBoundaryX noCandidate
    rw [boundaries, WrapState.noteCandidate_boundaries]
  rcases WrapState.noteCandidate_candidate state glyph.boundary ch glyph.x with
    ⟨isGlyph, x⟩ | ⟨same, sameX⟩
  · refine ⟨line, _, [], atGlyph _ ?_ ?_ ?_ ?_⟩
    all_goals simp [WrapState.breakLine, isGlyph, x]
  · cases candidate : state.lastCandidateIx with
    | none =>
        rw [candidate] at same
        refine ⟨line, _, [], atGlyph _ ?_ ?_ ?_ ?_⟩
        all_goals simp [WrapState.breakLine, same]
    | some boundary =>
        rw [candidate] at same
        rcases wrapping.candidate boundary candidate with ⟨front, ended, back, rfl, place, x⟩
        rw [List.append_assoc, List.cons_append] at noted
        refine ⟨front, ended, back ++ [⟨glyph, nextX lineWidth rest⟩], ?_, ?_, ?_, ?_, ?_, ?_, ?_⟩
        rotate_right
        · rw [← WrapState.noteCandidate_lastBoundaryX state glyph.boundary ch glyph.x]
          apply noted.divide
          all_goals simp [WrapState.breakLine, same, sameX, place, x]
        · simp
        · intro none
          rw [candidate] at none
          cases none
        all_goals simp [WrapState.breakLine, same, sameX, place, x]

/-- A glyph that is no newline: it goes on the open line, which it may make break. -/
theorem next_cases (wrapping : Wrapping lineWidth all state closed first line (glyph :: rest))
    (steps : state.next wrapWidth maxLines glyph.boundary ch glyph.x (nextX lineWidth rest) =
      some next) :
    (nextX lineWidth rest - state.lastBoundaryX ≤ wrapWidth ∧
        next.boundaries = state.boundaries ∧ next.lastBoundaryX = state.lastBoundaryX ∧
        Wrapping lineWidth all next closed first (line ++ [⟨glyph, nextX lineWidth rest⟩]) rest) ∨
      (wrapWidth < nextX lineWidth rest - state.lastBoundaryX ∧
        reachesMaxLines maxLines state.boundaries = false ∧
        ∃ front ended back, Broken lineWidth all state next closed first line glyph rest front
          ended back) := by
  have behind := (wrapping.behind glyph (by simp)).1
  rcases WrapState.next_eq_some steps with ⟨fits, rfl⟩ | ⟨tooWide, _, room, rfl⟩
  · refine Or.inl ⟨not_lt.mp fun wide => fits ⟨wide, behind⟩, ?_, ?_, ?_⟩
    · simp
    · simp
    · apply wrapping.put
      · simp
      · simp
      · simp
      · exact WrapState.noteCandidate_candidate ..
  · exact Or.inr ⟨tooWide, room, wrapping.exists_broken⟩

/-- A newline goes on the open line and changes nothing. -/
theorem putNewline (wrapping : Wrapping lineWidth all state closed first line (glyph :: rest)) :
    Wrapping lineWidth all state closed first (line ++ [⟨glyph, nextX lineWidth rest⟩]) rest :=
  wrapping.put rfl rfl rfl (Or.inr ⟨rfl, rfl⟩)

/-- The loop adds boundaries, which are places of glyphs other than the first. -/
theorem exists_boundaries (wrapping : Wrapping lineWidth all state closed first line rest)
    (indexed : ∀ glyph ∈ rest, glyph.character.isSome) :
    ∃ boundaries, LineLayout.wrapLoop lineWidth wrapWidth maxLines rest state = some boundaries ∧
      state.boundaries <+: boundaries ∧
      boundaries.Sublist (all.tail.map fun ended => ended.glyph.boundary) := by
  induction rest generalizing state closed first line with
  | nil =>
      refine ⟨state.boundaries, rfl, List.prefix_rfl, ?_⟩
      have places := wrapping.places
      exact (List.sublist_append_left _ _).trans places
  | cons glyph rest ih =>
      rw [List.forall_mem_cons] at indexed
      rcases Option.isSome_iff_exists.mp indexed.1 with ⟨ch, character⟩
      by_cases newline : ch = '\n'
      · rw [wrapLoop_newline (newline ▸ character)]
        exact ih wrapping.putNewline indexed.2
      · rw [wrapLoop_cons indexed.2 character newline]
        cases steps : state.next wrapWidth maxLines glyph.boundary ch glyph.x
            (nextX lineWidth rest) with
        | none =>
            refine ⟨state.boundaries, rfl, List.prefix_rfl, ?_⟩
            exact (List.sublist_append_left _ _).trans wrapping.places
        | some next =>
            rcases wrapping.next_cases steps with
              ⟨_, same, _, goesOn⟩ | ⟨_, _, front, ended, back, broken⟩
            · rw [← same]
              exact ih goesOn indexed.2
            · rcases ih broken.wrapping indexed.2 with ⟨boundaries, loops, longer, places⟩
              rw [broken.boundaries] at longer
              exact ⟨boundaries, loops, (List.prefix_append _ _).trans longer, places⟩

end Wrapping

section Loop

variable [Field K] [LinearOrder K] {lineWidth wrapWidth : K} {maxLines : Option UInt64}
  {state : WrapState K} {rest : List (WrapGlyph K)}

/-- Where nothing is too wide any more, or the limit is reached, nothing is broken. -/
theorem wrapLoop_quiet (indexed : ∀ glyph ∈ rest, glyph.character.isSome)
    (quiet : (∀ later ∈ endedGlyphs lineWidth rest, later.glyph.character = some '\n' ∨
        later.endX - state.lastBoundaryX ≤ wrapWidth) ∨
      reachesMaxLines maxLines state.boundaries = true) :
    LineLayout.wrapLoop lineWidth wrapWidth maxLines rest state = some state.boundaries ∧
      state.Settles lineWidth wrapWidth maxLines rest := by
  induction rest generalizing state with
  | nil => exact ⟨rfl, trivial⟩
  | cons glyph rest ih =>
      rw [List.forall_mem_cons] at indexed
      rw [endedGlyphs, List.forall_mem_cons] at quiet
      rcases Option.isSome_iff_exists.mp indexed.1 with ⟨ch, character⟩
      by_cases newline : ch = '\n'
      · rw [wrapLoop_newline (newline ▸ character),
          WrapState.settles_newline (newline ▸ character)]
        exact ih indexed.2 (quiet.imp_left And.right)
      · rw [wrapLoop_cons indexed.2 character newline,
          WrapState.settles_cons character newline]
        cases steps : state.next wrapWidth maxLines glyph.boundary ch glyph.x
            (nextX lineWidth rest) with
        | none => exact ⟨rfl, trivial⟩
        | some next =>
            have visible : glyph.character ≠ some '\n' := by
              rw [character]
              exact mt Option.some.inj newline
            rcases WrapState.next_eq_some steps with ⟨_, isNext⟩ | ⟨tooWide, _, room, _⟩
            · have same : next.boundaries = state.boundaries := by
                rw [isNext]
                exact WrapState.noteCandidate_boundaries ..
              have sameX : next.lastBoundaryX = state.lastBoundaryX := by
                rw [isNext]
                exact WrapState.noteCandidate_lastBoundaryX ..
              rw [← same, ← sameX] at quiet
              have rests := ih indexed.2 (quiet.imp_left And.right)
              rw [same] at rests quiet
              refine ⟨rests.1, ?_, rests.2⟩
              rw [WrapState.Settled, same]
              rcases quiet with fit | reaches
              · exact Or.inr (Or.inl (fit.1.resolve_left visible))
              · exact Or.inr (Or.inr (Or.inr (Or.inl reaches)))
            · rcases quiet with fit | reaches
              · exact absurd tooWide (not_lt.mpr (fit.1.resolve_left visible))
              · rw [reaches] at room
                cases room

end Loop

namespace Wrapping

variable [Field K] [LinearOrder K] [IsStrictOrderedRing K] {lineWidth wrapWidth : K}
  {maxLines : Option UInt64} {all : List (EndedGlyph K)} {state next : WrapState K}
  {closed : List (VisualLine K)} {first : EndedGlyph K} {line : List (EndedGlyph K)}
  {rest : List (WrapGlyph K)} {boundaries : List WrapBoundary}

omit [IsStrictOrderedRing K] in
/-- The lines before the open one. -/
theorem closed_eq (wrapping : Wrapping lineWidth all state closed first line rest) :
    (visualLines 0 all state.boundaries).dropLast = closed := by
  rw [wrapping.lines, List.dropLast_concat]

omit [IsStrictOrderedRing K] in
/-- A line that was closed stays. -/
theorem mem_dropLast (wrapping : Wrapping lineWidth all state closed first line rest)
    (indexed : ∀ glyph ∈ rest, glyph.character.isSome)
    (loops : LineLayout.wrapLoop lineWidth wrapWidth maxLines rest state = some boundaries) :
    ∀ line ∈ closed, line ∈ (visualLines 0 all boundaries).dropLast := by
  have exists_ : ∃ found, LineLayout.wrapLoop lineWidth wrapWidth maxLines rest state =
      some found ∧ state.boundaries <+: found ∧ _ := wrapping.exists_boundaries indexed
  rcases exists_ with ⟨found, finds, ⟨more, rfl⟩, _⟩
  rcases Option.some.inj (loops.symm.trans finds) with rfl
  exact visualLines_append wrapping.lines more

/-- A glyph that is too wide for its line, which is not alone there, is left on it by a later
break. -/
theorem not_fits (wrapping : Wrapping lineWidth all state closed first line rest)
    (indexed : ∀ glyph ∈ rest, glyph.character.isSome)
    (loops : LineLayout.wrapLoop lineWidth wrapWidth maxLines rest state = some boundaries)
    (noCandidate : state.lastCandidateIx = none) {wide : EndedGlyph K}
    (member : wide ∈ first :: line) (content : wide.glyph.isWhitespace = false)
    (tooWide : wrapWidth < wide.endX - state.lastBoundaryX)
    (later : ∃ later ∈ endedGlyphs lineWidth rest, later.glyph.character ≠ some '\n' ∧
      wrapWidth < later.endX - state.lastBoundaryX)
    (room : reachesMaxLines maxLines state.boundaries = false)
    (together : line ≠ [] ∨ ∃ later ∈ rest.head?, later.character = some '\n') :
    ∃ line ∈ (visualLines 0 all boundaries).dropLast, ¬ line.Fits wrapWidth := by
  induction rest generalizing line with
  | nil =>
      rcases later with ⟨_, among, _⟩
      cases among
  | cons glyph rest ih =>
      rw [List.forall_mem_cons] at indexed
      rcases Option.isSome_iff_exists.mp indexed.1 with ⟨ch, character⟩
      by_cases newline : ch = '\n'
      · rw [wrapLoop_newline (newline ▸ character)] at loops
        apply ih wrapping.putNewline indexed.2 loops
        · rcases List.mem_cons.mp member with rfl | among
          · exact List.mem_cons_self
          · exact List.mem_cons_of_mem _ (List.mem_append_left _ among)
        · rcases later with ⟨late, among, visible, wideToo⟩
          rw [endedGlyphs] at among
          rcases List.mem_cons.mp among with rfl | among
          · exact absurd (newline ▸ character) visible
          · exact ⟨late, among, visible, wideToo⟩
        · exact Or.inl (by simp)
      · have visible : glyph.character ≠ some '\n' := by
          rw [character]
          exact mt Option.some.inj newline
        have several : line ≠ [] := by
          rcases together with several | ⟨head, isHead, isNewline⟩
          · exact several
          · rcases Option.some.inj isHead with rfl
            exact absurd isNewline visible
        have stillWide : wrapWidth < nextX lineWidth rest - state.lastBoundaryX := by
          rcases later with ⟨late, among, _, wideToo⟩
          rw [endedGlyphs] at among
          rcases List.mem_cons.mp among with rfl | among
          · exact wideToo
          · cases rest with
            | nil => cases among
            | cons head rest =>
                have increasing := wrapping.increasing
                rw [List.pairwise_append, List.pairwise_cons] at increasing
                have ordered := (increasing.2.1.1 head List.mem_cons_self).2
                have ended := wrapping.ended wide member glyph List.mem_cons_self
                rw [nextX]
                linarith
        rw [wrapLoop_cons indexed.2 character newline] at loops
        cases steps : state.next wrapWidth maxLines glyph.boundary ch glyph.x
            (nextX lineWidth rest) with
        | none =>
            rw [WrapState.next_eq_none steps] at room
            cases room
        | some next =>
            rw [steps] at loops
            rcases wrapping.next_cases steps with ⟨fits, _⟩ | ⟨_, _, front, ended, back, broken⟩
            · exact absurd stillWide (not_lt.mpr fits)
            · have front := broken.atGlyph noCandidate
              refine ⟨⟨state.lastBoundaryX, first :: line⟩, ?_, ?_⟩
              · apply broken.wrapping.mem_dropLast indexed.2 loops
                rw [front]
                simp
              · intro fits
                have within := fits (by
                  have positive := List.length_pos_iff.mpr several
                  rw [List.length_cons]
                  omega) wide member content
                exact absurd tooWide (not_lt.mpr within)

/-- Every glyph of the open line fits, or the line is one glyph that no newline follows. -/
def OpenFits (wrapWidth : K) (state : WrapState K) (first : EndedGlyph K)
    (line : List (EndedGlyph K)) (rest : List (WrapGlyph K)) : Prop :=
  (∀ ended ∈ first :: line, ended.glyph.isWhitespace = true ∨
      ended.endX - state.lastBoundaryX ≤ wrapWidth) ∨
    line = [] ∧ ∀ later ∈ rest.head?, later.character ≠ some '\n'

/-- The lines fit if the glyph that was put last is settled, and the others will be. -/
theorem fits_iff_settled (wrapping : Wrapping lineWidth all state closed first line rest)
    (indexed : ∀ glyph ∈ rest, glyph.character.isSome)
    (closedFit : ∀ line ∈ closed, line.Fits wrapWidth)
    (loops : LineLayout.wrapLoop lineWidth wrapWidth maxLines rest state = some boundaries)
    (noCandidate : state.lastCandidateIx = none) {ended : EndedGlyph K}
    (member : ended ∈ first :: line)
    (others : ∀ other ∈ first :: line, other = ended ∨ other.glyph.isWhitespace = true ∨
      other.endX - state.lastBoundaryX ≤ wrapWidth)
    (alone : state.lastBoundary = ended.glyph.boundary ↔ line = [])
    (rests : OpenFits wrapWidth state first line rest →
      ((∀ line ∈ (visualLines 0 all boundaries).dropLast, line.Fits wrapWidth) ↔
        state.Settles lineWidth wrapWidth maxLines rest)) :
    (∀ line ∈ (visualLines 0 all boundaries).dropLast, line.Fits wrapWidth) ↔
      state.Settled lineWidth wrapWidth maxLines ended rest ∧
        state.Settles lineWidth wrapWidth maxLines rest := by
  by_cases settled : state.Settled lineWidth wrapWidth maxLines ended rest
  · rw [and_iff_right settled]
    have fine : ended.glyph.isWhitespace = true ∨
        ended.endX - state.lastBoundaryX ≤ wrapWidth → OpenFits wrapWidth state first line rest := by
      intro fits
      left
      intro other among
      rcases others other among with rfl | fitsToo
      · exact fits
      · exact fitsToo
    have done : LineLayout.wrapLoop lineWidth wrapWidth maxLines rest state =
          some state.boundaries ∧ state.Settles lineWidth wrapWidth maxLines rest →
        ((∀ line ∈ (visualLines 0 all boundaries).dropLast, line.Fits wrapWidth) ↔
          state.Settles lineWidth wrapWidth maxLines rest) := by
      rintro ⟨finds, settles⟩
      rcases Option.some.inj (loops.symm.trans finds) with rfl
      rw [wrapping.closed_eq]
      exact iff_of_true closedFit settles
    rcases settled with blank | fits | quiet | reaches | ⟨starts, notNewline⟩
    · exact rests (fine (Or.inl blank))
    · exact rests (fine (Or.inr fits))
    · exact done (wrapLoop_quiet indexed (Or.inl quiet))
    · exact done (wrapLoop_quiet indexed (Or.inr reaches))
    · exact rests (Or.inr ⟨alone.1 starts, notNewline⟩)
  · refine iff_of_false ?_ fun both => settled both.1
    intro allFit
    rw [WrapState.Settled, not_or, not_or, not_or, not_or] at settled
    rcases settled with ⟨content, wide, loud, room, notAlone⟩
    have later : ∃ later ∈ endedGlyphs lineWidth rest, later.glyph.character ≠ some '\n' ∧
        wrapWidth < later.endX - state.lastBoundaryX := by
      by_contra none
      apply loud
      intro later among
      by_contra neither
      rw [not_or] at neither
      exact none ⟨later, among, neither.1, not_le.mp neither.2⟩
    have together : line ≠ [] ∨ ∃ later ∈ rest.head?, later.character = some '\n' := by
      by_cases single : line = []
      · right
        by_contra none
        apply notAlone
        refine ⟨alone.2 single, ?_⟩
        intro head isHead isNewline
        exact none ⟨head, isHead, isNewline⟩
      · exact Or.inl single
    rcases wrapping.not_fits indexed loops noCandidate member (Bool.eq_false_iff.mpr content)
      (not_le.mp wide) later (Bool.eq_false_iff.mpr room) together with ⟨bad, among, overflows⟩
    exact overflows (allFit bad among)

/-- A glyph that fits leaves an open line on which every glyph fits. -/
theorem openFits_put {glyph : WrapGlyph K}
    (wrapping : Wrapping lineWidth all state closed first line (glyph :: rest))
    (openFits : OpenFits wrapWidth state first line (glyph :: rest))
    (sameX : next.lastBoundaryX = state.lastBoundaryX)
    (fits : nextX lineWidth rest - next.lastBoundaryX ≤ wrapWidth) (more : rest ≠ []) :
    OpenFits wrapWidth next first (line ++ [⟨glyph, nextX lineWidth rest⟩]) rest := by
  left
  rw [← List.cons_append, List.forall_mem_append, List.forall_mem_singleton]
  refine ⟨?_, Or.inr fits⟩
  rcases openFits with allFit | ⟨rfl, _⟩
  · rw [sameX]
    exact allFit
  · rw [List.forall_mem_singleton]
    right
    cases rest with
    | nil => exact absurd rfl more
    | cons head rest =>
        have increasing := wrapping.increasing
        rw [List.map_nil, List.nil_append, List.pairwise_cons] at increasing
        have ordered := (increasing.1 head List.mem_cons_self).2
        have ended := wrapping.ended first List.mem_cons_self glyph List.mem_cons_self
        rw [nextX] at fits
        linarith

namespace Broken

variable {glyph : WrapGlyph K} {front back : List (EndedGlyph K)} {ended : EndedGlyph K}

omit [IsStrictOrderedRing K] in
theorem front_subset (broken : Broken lineWidth all state next closed first line glyph rest front
    ended back) : front ⊆ line := by
  have lengths := congrArg List.length broken.split
  rw [List.length_append, List.length_append, List.length_singleton, List.length_cons] at lengths
  have isPrefix : front <+: line ++ [⟨glyph, nextX lineWidth rest⟩] := by
    rw [broken.split]
    exact List.prefix_append _ _
  exact (List.prefix_of_prefix_length_le isPrefix (List.prefix_append _ _) (by omega)).subset

omit [IsStrictOrderedRing K] in
theorem mem_iff (broken : Broken lineWidth all state next closed first line glyph rest front ended
    back) {other : EndedGlyph K} :
    other ∈ front ∨ other ∈ ended :: back ↔
      other ∈ line ∨ other = ⟨glyph, nextX lineWidth rest⟩ := by
  rw [← List.mem_append, ← broken.split, List.mem_append, List.mem_singleton]

omit [IsStrictOrderedRing K] in
/-- The glyph is the last of the new line. -/
theorem exists_last (broken : Broken lineWidth all state next closed first line glyph rest front
    ended back) : ∃ front, ended :: back = front ++ [⟨glyph, nextX lineWidth rest⟩] := by
  have last := congrArg List.getLast? broken.split
  rw [List.getLast?_concat, List.getLast?_append_cons] at last
  rcases List.eq_nil_or_concat (ended :: back) with none | ⟨earlier, found, split⟩
  · cases none
  · rw [List.concat_eq_append] at split
    rw [split, List.getLast?_concat] at last
    exact ⟨earlier, by rw [split, ← Option.some.inj last]⟩

omit [IsStrictOrderedRing K] in
theorem mem (broken : Broken lineWidth all state next closed first line glyph rest front ended
    back) : ⟨glyph, nextX lineWidth rest⟩ ∈ ended :: back := by
  rcases broken.exists_last with ⟨earlier, split⟩
  rw [split]
  exact List.mem_concat_self

omit [IsStrictOrderedRing K] in
theorem alone (broken : Broken lineWidth all state next closed first line glyph rest front ended
    back) : next.lastBoundary = glyph.boundary ↔ back = [] := by
  rw [broken.lastBoundary]
  constructor
  · intro same
    rcases broken.exists_last with ⟨earlier, split⟩
    cases earlier with
    | nil => exact (List.cons.inj split).2
    | cons head earlier =>
        have among : ⟨glyph, nextX lineWidth rest⟩ ∈ back := by
          rw [(List.cons.inj split).2]
          exact List.mem_concat_self
        have less := broken.wrapping.behindFirst glyph
          (List.mem_append_left _ (List.mem_map_of_mem among))
        rw [same] at less
        exact absurd less (WrapBoundary.lt_irrefl _)
  · rintro rfl
    rw [← List.mem_singleton.mp broken.mem]

omit [IsStrictOrderedRing K] in
/-- The closed line fits. -/
theorem closedFit (broken : Broken lineWidth all state next closed first line glyph rest front
    ended back) (closedFit : ∀ line ∈ closed, line.Fits wrapWidth)
    (openFits : OpenFits wrapWidth state first line (glyph :: rest)) :
    ∀ line ∈ closed ++ [⟨state.lastBoundaryX, first :: front⟩], line.Fits wrapWidth := by
  rw [List.forall_mem_append, List.forall_mem_singleton]
  refine ⟨closedFit, ?_⟩
  intro long other member content
  rcases openFits with allFit | ⟨rfl, _⟩
  · have among : other ∈ first :: line := List.cons_subset_cons first broken.front_subset member
    rcases allFit other among with blank | fits
    · rw [content] at blank
      cases blank
    · exact fits
  · rw [List.subset_nil.mp broken.front_subset] at long
    exact absurd long (lt_irrefl _)

/-- The other glyphs of the new line fit. -/
theorem others (broken : Broken lineWidth all state next closed first line glyph rest front ended
    back) (wrapping : Wrapping lineWidth all state closed first line (glyph :: rest))
    (openFits : OpenFits wrapWidth state first line (glyph :: rest)) :
    ∀ other ∈ ended :: back, other = ⟨glyph, nextX lineWidth rest⟩ ∨
      other.glyph.isWhitespace = true ∨ other.endX - next.lastBoundaryX ≤ wrapWidth := by
  have behind : state.lastBoundaryX ≤ ended.glyph.x := by
    rcases broken.mem_iff.1 (Or.inr List.mem_cons_self) with among | rfl
    · exact (wrapping.behind ended.glyph
        (List.mem_append_left _ (List.mem_map_of_mem among))).2
    · exact (wrapping.behind glyph (List.mem_append_right _ List.mem_cons_self)).2
  intro other member
  rcases broken.mem_iff.1 (Or.inr member) with among | isGlyph
  · rcases openFits with allFit | ⟨rfl, _⟩
    · right
      rcases allFit other (List.mem_cons_of_mem _ among) with blank | fits
      · exact Or.inl blank
      · right
        rw [broken.lastBoundaryX]
        linarith
    · cases among
  · exact Or.inl isGlyph

end Broken

/-- The lines that the loop closes fit if it settles every glyph. -/
theorem fits_iff (wrapping : Wrapping lineWidth all state closed first line rest)
    (indexed : ∀ glyph ∈ rest, glyph.character.isSome)
    (closedFit : ∀ line ∈ closed, line.Fits wrapWidth)
    (openFits : OpenFits wrapWidth state first line rest)
    (loops : LineLayout.wrapLoop lineWidth wrapWidth maxLines rest state = some boundaries) :
    (∀ line ∈ (visualLines 0 all boundaries).dropLast, line.Fits wrapWidth) ↔
      state.Settles lineWidth wrapWidth maxLines rest := by
  induction rest generalizing state closed first line with
  | nil =>
      rcases Option.some.inj loops with rfl
      rw [wrapping.closed_eq]
      exact iff_of_true closedFit trivial
  | cons glyph rest ih =>
      have indexedRest := (List.forall_mem_cons.mp indexed).2
      rcases Option.isSome_iff_exists.mp (indexed glyph List.mem_cons_self) with ⟨ch, character⟩
      by_cases newline : ch = '\n'
      · have isNewline : glyph.character = some '\n' := newline ▸ character
        rw [wrapLoop_newline isNewline] at loops
        rw [WrapState.settles_newline isNewline]
        apply ih wrapping.putNewline indexedRest closedFit _ loops
        left
        rcases openFits with fits | ⟨_, notNewline⟩
        · rw [← List.cons_append, List.forall_mem_append, List.forall_mem_singleton]
          refine ⟨fits, Or.inl ?_⟩
          rw [WrapGlyph.isWhitespace, isNewline]
          rfl
        · exact absurd isNewline (notNewline glyph rfl)
      · rw [wrapLoop_cons indexedRest character newline] at loops
        rw [WrapState.settles_cons character newline]
        cases steps : state.next wrapWidth maxLines glyph.boundary ch glyph.x
            (nextX lineWidth rest) with
        | none =>
            rw [steps] at loops
            rcases Option.some.inj loops with rfl
            rw [wrapping.closed_eq]
            exact iff_of_true closedFit trivial
        | some next =>
            rw [steps] at loops
            dsimp only at loops ⊢
            rcases wrapping.next_cases steps with
              ⟨fits, _, sameX, goesOn⟩ | ⟨_, _, front, ended, back, broken⟩
            · rw [← sameX] at fits
              have settled : next.Settled lineWidth wrapWidth maxLines
                  ⟨glyph, nextX lineWidth rest⟩ rest := Or.inr (Or.inl fits)
              rw [and_iff_right settled]
              by_cases last : rest = []
              · subst last
                rcases Option.some.inj loops with rfl
                rw [goesOn.closed_eq]
                exact iff_of_true closedFit trivial
              · exact ih goesOn indexedRest closedFit (wrapping.openFits_put openFits sameX fits last)
                  loops
            · apply broken.wrapping.fits_iff_settled indexedRest _ loops broken.noCandidate
                broken.mem (broken.others wrapping openFits) broken.alone
              · intro stillFits
                exact ih broken.wrapping indexedRest (broken.closedFit closedFit openFits) stillFits
                  loops
              · exact broken.closedFit closedFit openFits

end Wrapping

/-! ## The whole line -/

namespace LineLayout

section

theorem wrapGlyphs_boundary (layout : LineLayout K) (text : List Char) :
    (layout.wrapGlyphs text).Pairwise fun before after =>
      before.boundary.lt after.boundary = true := by
  rw [wrapGlyphs, List.pairwise_flatten]
  constructor
  · intro glyphs member
    rcases List.mem_mapIdx.mp member with ⟨runIx, bound, rfl⟩
    rw [List.pairwise_iff_getElem]
    intro i j iBound jBound less
    rw [List.getElem_mapIdx, List.getElem_mapIdx, WrapBoundary.lt_iff]
    exact Or.inr ⟨rfl, less⟩
  · rw [List.pairwise_iff_getElem]
    intro i j iBound jBound less before beforeMember after afterMember
    rw [List.getElem_mapIdx] at beforeMember afterMember
    rcases List.mem_mapIdx.mp beforeMember with ⟨_, _, rfl⟩
    rcases List.mem_mapIdx.mp afterMember with ⟨_, _, rfl⟩
    rw [WrapBoundary.lt_iff]
    exact Or.inl less

theorem wrapGlyphs_x (layout : LineLayout K) (text : List Char) :
    (layout.wrapGlyphs text).map WrapGlyph.x = layout.glyphs.map fun glyph => glyph.position.x := by
  have runs : ∀ (runIx : Nat) (run : ShapedRun K),
      (run.glyphs.mapIdx fun glyphIx glyph =>
        ({ boundary := ⟨runIx, glyphIx⟩
           character := characterAt text glyph.index
           x := glyph.position.x } : WrapGlyph K)).map WrapGlyph.x =
        run.glyphs.map fun glyph => glyph.position.x := by
    intro runIx run
    apply List.ext_getElem
    · simp
    · intro i _ _
      simp
  rw [wrapGlyphs, glyphs, List.map_flatten, List.map_flatMap, List.flatMap_def]
  congr 1
  apply List.ext_getElem
  · simp
  · intro i _ _
    rw [List.getElem_map, List.getElem_mapIdx, List.getElem_map, runs]

end

variable [Field K] [LinearOrder K]

/-- The positions of the glyphs do not decrease from the start of the line. -/
structure Advances (layout : LineLayout K) : Prop where
  ordered : (layout.glyphs.map fun glyph => glyph.position.x).Pairwise (· ≤ ·)
  nonneg : ∀ x ∈ layout.glyphs.map fun glyph => glyph.position.x, 0 ≤ x

variable {layout : LineLayout K} {text : List Char} {wrapWidth : K} {maxLines : Option UInt64}
  {boundaries : List WrapBoundary}

theorem Advances.wrapGlyphs (advances : layout.Advances) (text : List Char) :
    (layout.wrapGlyphs text).Pairwise (fun before after =>
      before.boundary.lt after.boundary = true ∧ before.x ≤ after.x) ∧
    ∀ glyph ∈ layout.wrapGlyphs text, 0 ≤ glyph.x := by
  have ordered := advances.ordered
  have nonneg := advances.nonneg
  rw [← wrapGlyphs_x layout text] at ordered nonneg
  exact ⟨(wrapGlyphs_boundary layout text).and (List.pairwise_map.mp ordered), List.forall_mem_map.mp nonneg⟩

omit [Field K] [LinearOrder K] in
theorem endedGlyphs_map_glyph (lineWidth : K) (glyphs : List (WrapGlyph K)) :
    (endedGlyphs lineWidth glyphs).map EndedGlyph.glyph = glyphs := by
  induction glyphs with
  | nil => rfl
  | cons glyph glyphs ih => rw [endedGlyphs, List.map_cons, ih]

/-- Places of glyphs other than the first, in order, are as expected if the lines are. -/
theorem wellWrapped_iff (indexed : layout.Indexed text)
    (computes : layout.computeWrapBoundaries text wrapWidth maxLines = some boundaries)
    (places : boundaries.Sublist ((layout.wrapGlyphs text).tail.map WrapGlyph.boundary)) :
    layout.WellWrapped text wrapWidth maxLines boundaries ↔
      (maxLines = some 0 →
        WrapState.new.asksLimit layout.width wrapWidth (layout.wrapGlyphs text) = false) ∧
      ∀ line ∈ (visualLines 0 (endedGlyphs layout.width (layout.wrapGlyphs text))
        boundaries).dropLast, line.Fits wrapWidth := by
  constructor
  · intro wellWrapped
    exact ⟨wellWrapped.noUnderflow, wellWrapped.within⟩
  · rintro ⟨noUnderflow, within⟩
    refine ⟨?_, ?_, ?_, noUnderflow, within⟩
    · apply List.Pairwise.sublist places
      rw [List.pairwise_map]
      exact (wrapGlyphs_boundary layout text).sublist (List.tail_sublist _)
    · intro boundary member
      exact List.mem_map.mp (places.subset member)
    · rintro limit rfl positive
      rcases computeWrapBoundaries_limit indexed wrapWidth with ⟨unlimited, _, limited⟩
      have isTake := computes.symm.trans (limited (some limit))
      rw [Option.some.inj isTake, limitLines, List.length_take,
        UInt64.toNat_sub_of_le limit 1 positive]
      exact min_le_left _ _

/-- The loop is done with the first glyph and has not broken the line at it. -/
theorem wrapping_start {lineWidth : K} {first : WrapGlyph K} {rest : List (WrapGlyph K)}
    {state : WrapState K}
    (increasing : (first :: rest).Pairwise fun before after =>
      before.boundary.lt after.boundary = true ∧ before.x ≤ after.x)
    (nonneg : ∀ glyph ∈ first :: rest, 0 ≤ glyph.x) (boundaries : state.boundaries = [])
    (lastBoundary : state.lastBoundary = ⟨0, 0⟩) (lastBoundaryX : state.lastBoundaryX = 0)
    (noCandidate : state.lastCandidateIx = none) :
    Wrapping lineWidth (endedGlyphs lineWidth (first :: rest)) state []
      ⟨first, nextX lineWidth rest⟩ [] rest := by
  rw [List.pairwise_cons] at increasing
  constructor
  · rw [boundaries, lastBoundaryX]
    rfl
  · rw [boundaries, endedGlyphs, List.tail_cons, List.map_nil, List.nil_append, List.nil_append]
    have places : (endedGlyphs lineWidth rest).map (fun ended => ended.glyph.boundary) =
        ((endedGlyphs lineWidth rest).map EndedGlyph.glyph).map WrapGlyph.boundary := by
      rw [List.map_map]
      rfl
    rw [places, endedGlyphs_map_glyph]
  · exact increasing.2
  · intro later member
    exact (increasing.1 later member).1
  · intro later member
    rw [lastBoundary, lastBoundaryX]
    have less := (increasing.1 later member).1
    rw [WrapBoundary.lt_iff] at less ⊢
    refine ⟨?_, nonneg later (List.mem_cons_of_mem _ member)⟩
    dsimp only
    omega
  · intro ended member later among
    rw [List.mem_singleton.mp member]
    exact Wrapping.nextX_le increasing.2 later among
  · intro boundary isCandidate
    rw [noCandidate] at isCandidate
    cases isCandidate

theorem reachesMaxLines_nil (reaches : reachesMaxLines maxLines [] = true) :
    maxLines = some 1 := by
  cases maxLines with
  | none => cases reaches
  | some limit =>
      have zero : (limit - 1).toNat = 0 := by
        simpa [reachesMaxLines] using reaches
      have isZero : limit - 1 = 0 := UInt64.toNat_inj.mp zero
      rw [sub_eq_zero.mp isZero]

/-- Once the first glyph stays, the boundaries are as expected if the loop settles the
others. -/
theorem wellWrapped_iff_of_wrapping {first : WrapGlyph K} {rest : List (WrapGlyph K)}
    {state : WrapState K} (indexed : layout.Indexed text)
    (split : layout.wrapGlyphs text = first :: rest)
    (wrapping : Wrapping layout.width (endedGlyphs layout.width (first :: rest)) state []
      ⟨first, nextX layout.width rest⟩ [] rest)
    (computes : layout.computeWrapBoundaries text wrapWidth maxLines =
      wrapLoop layout.width wrapWidth maxLines rest state)
    (stays : layout.FirstStays text wrapWidth maxLines)
    (settles : ∀ boundaries, wrapLoop layout.width wrapWidth maxLines rest state =
        some boundaries →
      ((∀ line ∈ (visualLines 0 (endedGlyphs layout.width (first :: rest)) boundaries).dropLast,
          line.Fits wrapWidth) ↔
        WrapState.new.Settles layout.width wrapWidth maxLines (first :: rest))) :
    ∃ boundaries, layout.computeWrapBoundaries text wrapWidth maxLines = some boundaries ∧
      (layout.WellWrapped text wrapWidth maxLines boundaries ↔
        layout.SettlesGlyphs text wrapWidth maxLines) := by
  have indexedRest : ∀ glyph ∈ rest, glyph.character.isSome := by
    have all := indexed.wrapGlyphs
    rw [split, List.forall_mem_cons] at all
    exact all.2
  rcases wrapping.exists_boundaries indexedRest with ⟨boundaries, loops, _, places⟩
  have isResult := computes.trans loops
  refine ⟨boundaries, isResult, ?_⟩
  have placesOfText : boundaries.Sublist ((layout.wrapGlyphs text).tail.map
      WrapGlyph.boundary) := by
    rw [split, List.tail_cons, ← endedGlyphs_map_glyph layout.width rest, List.map_map]
    exact places
  rw [wellWrapped_iff indexed isResult placesOfText, split, settles boundaries loops]
  constructor
  · rintro ⟨limit, all⟩
    exact ⟨split ▸ limit, stays, split ▸ all⟩
  · intro settled
    exact ⟨split ▸ settled.limit, split ▸ settled.settles⟩

/-- A boundary for which there was room is kept. -/
theorem mem_limitLines_cons (room : reachesMaxLines maxLines [] = false)
    (boundary : WrapBoundary) (more : List WrapBoundary) :
    boundary ∈ limitLines maxLines (boundary :: more) := by
  cases maxLines with
  | none => exact List.mem_cons_self
  | some limit =>
      have positive : (limit - 1).toNat ≠ 0 := by
        simpa [reachesMaxLines] using room
      rcases Nat.exists_eq_succ_of_ne_zero positive with ⟨count, isSucc⟩
      rw [limitLines, isSucc, List.take_succ_cons]
      exact List.mem_cons_self

/-- Where the line is broken at its first glyph, the boundary is not as expected. -/
theorem not_wellWrapped_of_broken {first : WrapGlyph K} {rest : List (WrapGlyph K)}
    {state : WrapState K} (indexed : layout.Indexed text)
    (split : layout.wrapGlyphs text = first :: rest)
    (computes : layout.computeWrapBoundaries text wrapWidth maxLines =
      wrapLoop layout.width wrapWidth maxLines rest state)
    (broken : state.boundaries = [first.boundary])
    (room : reachesMaxLines maxLines [] = false) :
    ∃ boundaries, layout.computeWrapBoundaries text wrapWidth maxLines = some boundaries ∧
      ¬ layout.WellWrapped text wrapWidth maxLines boundaries := by
  have indexedRest : ∀ glyph ∈ rest, glyph.character.isSome := by
    have all := indexed.wrapGlyphs
    rw [split, List.forall_mem_cons] at all
    exact all.2
  rcases wrapLoop_limit layout.width wrapWidth rest state indexedRest with
    ⟨unlimited, _, ⟨more, rfl⟩, limited⟩
  rw [broken, List.singleton_append] at limited
  refine ⟨_, computes.trans (limited maxLines (limitLines_snoc room first.boundary)), ?_⟩
  intro wellWrapped
  rcases wellWrapped.glyphs _ (mem_limitLines_cons room first.boundary more) with
    ⟨glyph, member, same⟩
  have increasing := wrapGlyphs_boundary layout text
  rw [split] at increasing member
  have less := (List.pairwise_cons.mp increasing).1 glyph member
  rw [same] at less
  exact WrapBoundary.lt_irrefl _ less

/-- Without boundaries there is only the last line. -/
theorem wellWrapped_nil_iff (indexed : layout.Indexed text)
    (computes : layout.computeWrapBoundaries text wrapWidth maxLines = some []) :
    layout.WellWrapped text wrapWidth maxLines [] ↔
      (maxLines = some 0 →
        WrapState.new.asksLimit layout.width wrapWidth (layout.wrapGlyphs text) = false) := by
  rw [wellWrapped_iff indexed computes (List.nil_sublist _)]
  apply and_iff_left
  intro line member
  cases member

variable [IsStrictOrderedRing K]

/-- The first glyph is no newline and the line is not broken at it. -/
theorem wellWrapped_iff_of_unbroken {first : WrapGlyph K} {rest : List (WrapGlyph K)}
    {ch : Char} {next : WrapState K} (indexed : layout.Indexed text)
    (advances : layout.Advances) (split : layout.wrapGlyphs text = first :: rest)
    (character : first.character = some ch) (visible : ch ≠ '\n')
    (steps : WrapState.new.next wrapWidth maxLines first.boundary ch first.x
      (nextX layout.width rest) = some next)
    (stays : first.boundary = ⟨0, 0⟩ ∨ nextX layout.width rest ≤ wrapWidth)
    (isNext : next = { WrapState.new.noteCandidate first.boundary ch first.x with prevCh := ch }) :
    ∃ boundaries, layout.computeWrapBoundaries text wrapWidth maxLines = some boundaries ∧
      (layout.WellWrapped text wrapWidth maxLines boundaries ↔
        layout.SettlesGlyphs text wrapWidth maxLines) := by
  have facts := advances.wrapGlyphs text
  have allIndexed := indexed.wrapGlyphs
  rw [split] at facts allIndexed
  rw [List.forall_mem_cons] at allIndexed
  have lastBoundary : next.lastBoundary = ⟨0, 0⟩ := by
    rw [isNext]
    exact WrapState.noteCandidate_lastBoundary ..
  have lastBoundaryX : next.lastBoundaryX = 0 := by
    rw [isNext]
    exact WrapState.noteCandidate_lastBoundaryX ..
  have noCandidate : next.lastCandidateIx = none := by
    rw [isNext]
    exact WrapState.noteCandidate_first rfl ..
  have wrapping : Wrapping layout.width (endedGlyphs layout.width (first :: rest)) next []
      ⟨first, nextX layout.width rest⟩ [] rest := by
    apply wrapping_start facts.1 facts.2 _ lastBoundary lastBoundaryX noCandidate
    rw [isNext]
    exact WrapState.noteCandidate_boundaries ..
  apply wellWrapped_iff_of_wrapping indexed split wrapping
  · rw [computeWrapBoundaries, split, wrapLoop_cons allIndexed.2 character visible, steps]
  · rw [FirstStays, split]
    exact stays.imp_right fun fits => Or.inr (Or.inl fits)
  · intro boundaries loops
    rw [WrapState.settles_cons character visible, steps]
    have noLines : ∀ line ∈ ([] : List (VisualLine K)), line.Fits wrapWidth := by
      intro line member
      cases member
    rcases stays with atStart | fits
    · apply wrapping.fits_iff_settled allIndexed.2 noLines loops noCandidate List.mem_cons_self
      · intro other member
        exact Or.inl (List.mem_singleton.mp member)
      · exact iff_of_true (lastBoundary.trans atStart.symm) rfl
      · intro openFits
        exact wrapping.fits_iff allIndexed.2 noLines openFits loops
    · have within : nextX layout.width rest - next.lastBoundaryX ≤ wrapWidth := by
        rw [lastBoundaryX, sub_zero]
        exact fits
      have settled : next.Settled layout.width wrapWidth maxLines
          ⟨first, nextX layout.width rest⟩ rest := Or.inr (Or.inl within)
      dsimp only
      rw [and_iff_right settled]
      apply wrapping.fits_iff allIndexed.2 noLines _ loops
      left
      rw [List.forall_mem_singleton]
      exact Or.inr within

/-- `a bWx`, where `W` is 25 wide and the others are 10. -/
def wideGlyph : LineLayout ℚ :=
  let glyph : ℚ → Nat → ShapedGlyph ℚ := fun x index => ⟨1, ⟨x, 0⟩, index, false⟩
  ⟨10, 65, 8, 2, [⟨1, [glyph 0 0, glyph 10 1, glyph 20 2, glyph 30 3, glyph 55 4]⟩], 5⟩

end LineLayout

end Gpui
