import Gpui.TextSystem.TruncateLine

/-!
# Wrapping a line of fragments

A line of text and elements is broken where it gets wider than the width to wrap to: at the
last candidate on it, or else at the character or element that is too much.  The lines that
follow are indented like the first.

Every boundary is given to the caller before the character it was found at becomes the
previous one, and the next character is looked at as if that one was not there.
-/

namespace Gpui

/-- A fragment of a line: text or an element. -/
inductive LineFragment (K : Type) where
  | text (text : String)
  | element (width : K) (lenUtf8 : Nat)

inductive WrapBoundaryCandidate (K : Type) where
  | char (character : Char)
  | element (width : K) (lenUtf8 : Nat)

/-- A boundary between two lines of text, with the indent of the next one. -/
structure Boundary where
  ix : Nat
  nextIndent : Nat
deriving DecidableEq

variable {K : Type}

def LineFragment.wrapBoundaryCandidates : LineFragment K → List (WrapBoundaryCandidate K)
  | .text string => string.toList.map .char
  | .element width lenUtf8 => [.element width lenUtf8]

namespace WrapBoundaryCandidate

def lenUtf8 : WrapBoundaryCandidate K → Nat
  | .char character => character.utf8Size
  | .element _ lenUtf8 => lenUtf8

def isNewline : WrapBoundaryCandidate K → Bool
  | .char c => c = '\n'
  | .element _ _ => false

def isSpace : WrapBoundaryCandidate K → Bool
  | .char c => c = ' '
  | .element _ _ => false

/-- A character of a word. -/
def isWord : WrapBoundaryCandidate K → Bool
  | .char c => LineWrapper.isWordChar c
  | .element _ _ => false

/-- The line may be broken here, after `prev_c` and behind its indentation. -/
def mayBreak (prevC : Char) (indented : Bool) : WrapBoundaryCandidate K → Bool
  | .char c =>
      if LineWrapper.isWordChar c then prevC = ' ' && c ≠ ' ' && indented
      else c ≠ ' ' && indented
  | .element _ _ => prevC = ' ' && indented

def newPrevC (prevC : Char) : WrapBoundaryCandidate K → Char
  | .char c => c
  | .element _ _ => prevC

def itemWidth (widthForChar : Char → K) : WrapBoundaryCandidate K → K
  | .char c => widthForChar c
  | .element elementWidth _ => elementWidth

end WrapBoundaryCandidate

/-- What is carried along a line.  There is no candidate at 0. -/
structure WrapLineState (K : Type) where
  width : K
  firstNonWhitespaceIx : Option Nat
  indent : Option Nat
  lastCandidateIx : Nat
  lastCandidateWidth : K
  lastWrapIx : Nat
  prevC : Char
  index : Nat

/-- `LineWrapper::MAX_INDENT`. -/
def maxIndent : Nat := 256

namespace WrapLineState

def new [Zero K] : WrapLineState K where
  width := 0
  firstNonWhitespaceIx := none
  indent := none
  lastCandidateIx := 0
  lastCandidateWidth := 0
  lastWrapIx := 0
  prevC := '\x00'
  index := 0

/-- Note where the line can be broken, and where it begins. -/
def note (state : WrapLineState K) (candidate : WrapBoundaryCandidate K) (ix : Nat) :
    WrapLineState K :=
  let state :=
    if candidate.mayBreak state.prevC state.firstNonWhitespaceIx.isSome then
      { state with lastCandidateIx := ix, lastCandidateWidth := state.width }
    else state
  if !candidate.isSpace && state.firstNonWhitespaceIx.isNone then
    { state with firstNonWhitespaceIx := some ix }
  else state

variable [Field K] [LinearOrder K]

omit [LinearOrder K] in
/-- Break the line at the last candidate, if there is one, and here otherwise. -/
def breakLine (spaceWidth : K) (state : WrapLineState K) (ix : Nat) (itemWidth : K) :
    WrapLineState K :=
  let state :=
    match state.indent, state.firstNonWhitespaceIx with
    | none, some firstNonWhitespaceIx =>
        { state with
          indent := some (min maxIndent ((firstNonWhitespaceIx - state.lastWrapIx) % 2 ^ 32)) }
    | _, _ => state
  let state :=
    if state.lastCandidateIx > 0 then
      { state with
        lastWrapIx := state.lastCandidateIx
        width := state.width - state.lastCandidateWidth
        lastCandidateIx := 0 }
    else { state with lastWrapIx := ix, width := itemWidth }
  match state.indent with
  | some indent => { state with width := state.width + spaceWidth * indent }
  | none => state

omit [LinearOrder K] in
/-- The line goes on with the candidate. -/
def put (widthForChar : Char → K) (state : WrapLineState K)
    (candidate : WrapBoundaryCandidate K) : WrapLineState K :=
  let noted := state.note candidate state.index
  { noted with
    index := state.index + candidate.lenUtf8
    width := noted.width + candidate.itemWidth widthForChar }

/-- One iteration.  Where it ends with a boundary, `prev_c` is as before. -/
def step (widthForChar : Char → K) (wrapWidth : K) (state : WrapLineState K)
    (candidate : WrapBoundaryCandidate K) : Option Boundary × WrapLineState K :=
  let ix := state.index
  if candidate.isNewline then (none, { state with index := ix + candidate.lenUtf8 })
  else
    let state := state.put widthForChar candidate
    if state.width > wrapWidth ∧ ix > state.lastWrapIx then
      let state :=
        state.breakLine (widthForChar ' ') ix (candidate.itemWidth widthForChar)
      (some ⟨state.lastWrapIx, state.indent.getD 0⟩, state)
    else (none, { state with prevC := candidate.newPrevC state.prevC })

/-- The boundaries, from the first to the last. -/
def boundaries (widthForChar : Char → K) (wrapWidth : K) :
    List (WrapBoundaryCandidate K) → WrapLineState K → List Boundary
  | [], _ => []
  | candidate :: candidates, state =>
      match state.step widthForChar wrapWidth candidate with
      | (some boundary, state) => boundary :: boundaries widthForChar wrapWidth candidates state
      | (none, state) => boundaries widthForChar wrapWidth candidates state

end WrapLineState

/-- Wrap a line of text to the given width.  What the wrapper remembers of the widths makes no
difference. -/
def LineWrapper.wrapLine [Field K] [LinearOrder K] {platform : PlatformTextSystem K}
    {font : FontIdWithSize K} (self : LineWrapper platform font)
    (fragments : List (LineFragment K)) (wrapWidth : K) : List Boundary :=
  WrapLineState.new.boundaries (fun c => (self.widthForChar c).1) wrapWidth
    (fragments.flatMap LineFragment.wrapBoundaryCandidates)

/-! ## What is expected of the boundaries -/

/-- A character or an element in its place: whether the line may be broken before it, and
whether a word goes on with it. -/
structure LineItem (K : Type) where
  candidate : WrapBoundaryCandidate K
  ix : Nat
  opportunity : Bool
  insideWord : Bool

/-- The items of a line, each after the character that precedes it. -/
def lineItems (ix : Nat) (prevC : Char) (indented inWord : Bool) :
    List (WrapBoundaryCandidate K) → List (LineItem K)
  | [] => []
  | candidate :: candidates =>
      if candidate.isNewline then
        ⟨candidate, ix, false, false⟩ ::
          lineItems (ix + candidate.lenUtf8) prevC indented false candidates
      else
        ⟨candidate, ix, candidate.mayBreak prevC indented, inWord && candidate.isWord⟩ ::
          lineItems (ix + candidate.lenUtf8) (candidate.newPrevC prevC)
            (indented || !candidate.isSpace) candidate.isWord candidates

/-- A part of a line, with its indent and the item that comes after it. -/
structure LinePiece (K : Type) where
  indent : Nat
  items : List (LineItem K)
  next : Option (LineItem K)

/-- The item is not the one at the place. -/
def LineItem.isBefore (ix : Nat) (self : LineItem K) : Bool :=
  self.ix ≠ ix

/-- The pieces that the boundaries divide the items into. -/
def linePieces (indent : Nat) (items : List (LineItem K)) : List Boundary → List (LinePiece K)
  | [] => [⟨indent, items, none⟩]
  | boundary :: boundaries =>
      let rest := items.dropWhile (LineItem.isBefore boundary.ix)
      ⟨indent, items.takeWhile (LineItem.isBefore boundary.ix), rest.head?⟩ ::
        linePieces boundary.nextIndent rest boundaries

section Pieces

variable [Field K] [LinearOrder K]

omit [LinearOrder K] in
/-- A newline has no width. -/
def LineItem.width (widthForChar : Char → K) (self : LineItem K) : K :=
  if self.candidate.isNewline then 0 else self.candidate.itemWidth widthForChar

namespace LinePiece

omit [LinearOrder K] in
/-- The width of the hanging indent and of the items. -/
def width (widthForChar : Char → K) (indent : Nat) (items : List (LineItem K)) : K :=
  widthForChar ' ' * indent + (items.map (LineItem.width widthForChar)).sum

/-- The piece fits, or there is nothing in it but newlines to break it at. -/
def Fits (widthForChar : Char → K) (wrapWidth : K) (self : LinePiece K) : Prop :=
  width widthForChar self.indent self.items ≤ wrapWidth ∨
    ∀ item ∈ self.items.tail, item.candidate.isNewline = true

omit [Field K] [LinearOrder K] in
/-- If the piece ends in a word, it could not have been broken before. -/
def KeepsWords (self : LinePiece K) : Prop :=
  ∀ next, self.next = some next → next.insideWord = true →
    ∀ item ∈ self.items.tail, item.opportunity = false

end LinePiece

/-- What is expected of the boundaries of a line. -/
structure WellBroken (widthForChar : Char → K) (wrapWidth : K)
    (candidates : List (WrapBoundaryCandidate K)) (boundaries : List Boundary) : Prop where
  increasing : boundaries.Pairwise fun first second => first.ix < second.ix
  /-- Starts of characters or elements. -/
  places : ∀ boundary ∈ boundaries,
    ∃ item ∈ lineItems 0 '\x00' false false candidates, item.ix = boundary.ix
  inside : ∀ boundary ∈ boundaries,
    0 < boundary.ix ∧ boundary.ix < (candidates.map WrapBoundaryCandidate.lenUtf8).sum
  pieces : ∀ piece ∈ linePieces 0 (lineItems 0 '\x00' false false candidates) boundaries,
    piece.next.isSome → piece.Fits widthForChar wrapWidth ∧ piece.KeepsWords

/-- Where a line is broken, the item fits on the line it is moved to, or starts it, or is the
last; and if it is inside a word and the line is broken before it, then there is no opportunity
on the line that was not noted. -/
def WrapLineState.Settles (widthForChar : Char → K) (wrapWidth : K) :
    List (LineItem K) → Bool → WrapLineState K → Prop
  | [], _, _ => True
  | item :: items, unseen, state =>
      match state.step widthForChar wrapWidth item.candidate with
      | (some _, next) =>
          (next.width ≤ wrapWidth ∨ next.lastWrapIx = item.ix ∨
              ∀ later ∈ items, later.candidate.isNewline = true) ∧
            (next.lastWrapIx = item.ix → item.insideWord = true → unseen = false) ∧
            next.Settles widthForChar wrapWidth items false
      | (none, next) =>
          next.Settles widthForChar wrapWidth items
            (unseen || item.opportunity &&
              !item.candidate.mayBreak state.prevC state.firstNonWhitespaceIx.isSome)

end Pieces

/-! ## Dividing items -/

section Divide

variable {indent nextIndent : Nat} {items front back : List (LineItem K)} {item : LineItem K}
  {boundaries : List Boundary} {closed : List (LinePiece K)}

theorem linePieces_ne_nil (indent : Nat) (items : List (LineItem K))
    (boundaries : List Boundary) : linePieces indent items boundaries ≠ [] := by
  cases boundaries with
  | nil => exact List.cons_ne_nil _ _
  | cons boundary boundaries => exact List.cons_ne_nil _ _

theorem divide_items (absent : ∀ other ∈ front, other.ix ≠ item.ix) :
    (front ++ item :: back).takeWhile (LineItem.isBefore item.ix) = front ∧
      (front ++ item :: back).dropWhile (LineItem.isBefore item.ix) = item :: back := by
  have before : ∀ other ∈ front, LineItem.isBefore item.ix other = true :=
    fun other member => decide_eq_true (absent other member)
  have stops : ¬ LineItem.isBefore item.ix item = true := by
    simp [LineItem.isBefore]
  rw [List.takeWhile_append_of_pos before, List.dropWhile_append_of_pos before,
    List.takeWhile_cons_of_neg stops, List.dropWhile_cons_of_neg stops, List.append_nil]
  exact ⟨rfl, rfl⟩

/-- One more boundary divides the last piece. -/
theorem linePieces_snoc {lastIndent : Nat}
    (pieces : linePieces indent items boundaries =
      closed ++ [⟨lastIndent, front ++ item :: back, none⟩])
    (absent : ∀ other ∈ front, other.ix ≠ item.ix) :
    linePieces indent items (boundaries ++ [⟨item.ix, nextIndent⟩]) =
      closed ++ [⟨lastIndent, front, some item⟩] ++ [⟨nextIndent, item :: back, none⟩] := by
  induction boundaries generalizing indent items closed with
  | nil =>
      rw [linePieces] at pieces
      rcases List.append_eq_singleton_iff.mp pieces.symm with ⟨rfl, last⟩ | ⟨_, last⟩
      · rcases List.singleton_inj.mp last with ⟨⟩
        rw [List.nil_append, linePieces, (divide_items absent).1, (divide_items absent).2]
        rfl
      · exact absurd last (List.cons_ne_nil _ _)
  | cons boundary boundaries ih =>
      rw [linePieces] at pieces
      cases closed with
      | nil =>
          have none := (List.cons.inj pieces).2
          exact absurd none (linePieces_ne_nil _ _ _)
      | cons piece closed =>
          rcases List.cons.inj pieces with ⟨rfl, rest⟩
          rw [List.cons_append, linePieces, ih rest]
          rfl

/-- More boundaries leave the pieces before the last one. -/
theorem linePieces_append {last : LinePiece K}
    (pieces : linePieces indent items boundaries = closed ++ [last]) (more : List Boundary) :
    ∀ piece ∈ closed, piece ∈ linePieces indent items (boundaries ++ more) := by
  induction boundaries generalizing indent items closed with
  | nil =>
      rw [linePieces] at pieces
      rcases List.append_eq_singleton_iff.mp pieces.symm with ⟨rfl, _⟩ | ⟨_, last⟩
      · intro piece member
        cases member
      · exact absurd last (List.cons_ne_nil _ _)
  | cons boundary boundaries ih =>
      rw [linePieces] at pieces
      cases closed with
      | nil =>
          intro piece member
          cases member
      | cons first closed =>
          rcases List.cons.inj pieces with ⟨rfl, rest⟩
          rw [List.cons_append, linePieces, List.forall_mem_cons]
          exact ⟨List.mem_cons_self, fun piece member =>
            List.mem_cons_of_mem _ (ih rest piece member)⟩

end Divide

/-- How far a line has been divided: the items of its last piece, and those that follow. -/
structure OpenPiece (all : List (LineItem K)) (boundaries : List Boundary)
    (closed : List (LinePiece K)) (indent : Nat) (first : LineItem K) (line rest : List (LineItem K)) :
    Prop where
  pieces : linePieces 0 all boundaries = closed ++ [⟨indent, first :: line ++ rest, none⟩]
  places : (boundaries.map Boundary.ix ++ (line ++ rest).map LineItem.ix).Sublist
    (all.tail.map LineItem.ix)
  increasing : (first :: line ++ rest).Pairwise fun before after => before.ix < after.ix

namespace OpenPiece

variable {all : List (LineItem K)} {boundaries : List Boundary} {closed : List (LinePiece K)}
  {indent : Nat} {first item : LineItem K} {line rest front back : List (LineItem K)}

theorem put (openPiece : OpenPiece all boundaries closed indent first line (item :: rest)) :
    OpenPiece all boundaries closed indent first (line ++ [item]) rest := by
  have together : line ++ [item] ++ rest = line ++ item :: rest := by simp
  constructor
  · rw [List.cons_append, together]
    exact openPiece.pieces
  · rw [together]
    exact openPiece.places
  · rw [List.cons_append, together]
    exact openPiece.increasing

/-- The last piece is divided at one of its items. -/
theorem divide (openPiece : OpenPiece all boundaries closed indent first (front ++ item :: back)
    rest) (nextIndent : Nat) :
    OpenPiece all (boundaries ++ [⟨item.ix, nextIndent⟩])
      (closed ++ [⟨indent, first :: front, some item⟩]) nextIndent item back rest := by
  have together : first :: (front ++ item :: back) ++ rest =
      first :: front ++ (item :: back ++ rest) := by
    simp
  have increasing := openPiece.increasing
  rw [together, List.pairwise_append] at increasing
  constructor
  · apply linePieces_snoc
    · rw [openPiece.pieces, together]
      rfl
    · intro other member
      exact (increasing.2.2 other member item List.mem_cons_self).ne
  · refine List.Sublist.trans ?_ openPiece.places
    rw [List.map_append, List.append_assoc]
    apply List.Sublist.append_left
    have fromHere : [item.ix] ++ (back ++ rest).map LineItem.ix =
        (item :: back ++ rest).map LineItem.ix := rfl
    rw [List.map_singleton, fromHere, List.append_assoc]
    exact (List.sublist_append_right _ _).map _
  · exact increasing.2.1

end OpenPiece

/-! ## What is carried along a line -/

namespace WrapBoundaryCandidate

variable {candidate : WrapBoundaryCandidate K} {prevC other : Char} {indented : Bool}

theorem mayBreak_indent (candidate : WrapBoundaryCandidate K) (prevC : Char) :
    candidate.mayBreak prevC false = false := by
  cases candidate with
  | char c => simp [mayBreak]
  | element width lenUtf8 => simp [mayBreak]

/-- Only a space makes a difference. -/
theorem space_of_mayBreak (breaks : candidate.mayBreak prevC indented = true)
    (stays : candidate.mayBreak other indented = false) : prevC = ' ' ∧ other ≠ ' ' := by
  by_contra neither
  rw [not_and, not_not] at neither
  cases candidate with
  | char c =>
      by_cases word : LineWrapper.isWordChar c = true
      · simp only [mayBreak, word, if_true, Bool.and_eq_true, decide_eq_true_eq] at breaks
        simp [mayBreak, word, neither breaks.1.1, breaks.1.2, breaks.2] at stays
      · simp only [mayBreak, if_neg word] at breaks stays
        rw [breaks] at stays
        cases stays
  | element width lenUtf8 =>
      simp only [mayBreak, Bool.and_eq_true, decide_eq_true_eq] at breaks
      simp [mayBreak, neither breaks.1, breaks.2] at stays

theorem space_of_isWord (breaks : candidate.mayBreak prevC indented = true)
    (word : candidate.isWord = true) : prevC = ' ' := by
  cases candidate with
  | char c =>
      rw [isWord] at word
      simp only [mayBreak, word, if_true, Bool.and_eq_true, decide_eq_true_eq] at breaks
      exact breaks.1.1
  | element width lenUtf8 => cases word

end WrapBoundaryCandidate

namespace WrapLineState

section Put

variable [Field K] (widthForChar : Char → K) (state : WrapLineState K)
  (candidate : WrapBoundaryCandidate K)

@[simp]
theorem put_index : (state.put widthForChar candidate).index =
    state.index + candidate.lenUtf8 := rfl

@[simp]
theorem put_lastWrapIx : (state.put widthForChar candidate).lastWrapIx = state.lastWrapIx := by
  simp only [put, note]
  split_ifs
  all_goals rfl

@[simp]
theorem put_prevC : (state.put widthForChar candidate).prevC = state.prevC := by
  simp only [put, note]
  split_ifs
  all_goals rfl

@[simp]
theorem put_width : (state.put widthForChar candidate).width =
    state.width + candidate.itemWidth widthForChar := by
  simp only [put, note]
  split_ifs
  all_goals rfl

@[simp]
theorem put_firstNonWhitespaceIx :
    (state.put widthForChar candidate).firstNonWhitespaceIx.isSome =
      (state.firstNonWhitespaceIx.isSome || !candidate.isSpace) := by
  cases first : state.firstNonWhitespaceIx with
  | none =>
      cases space : candidate.isSpace with
      | true => simp [put, note, first, space, WrapBoundaryCandidate.mayBreak_indent]
      | false => simp [put, note, first, space, WrapBoundaryCandidate.mayBreak_indent]
  | some ix =>
      simp only [put, note, first]
      split_ifs
      all_goals simp_all

/-- The candidate is the last one, or that is as before. -/
theorem put_candidate :
    let next := state.put widthForChar candidate
    if candidate.mayBreak state.prevC state.firstNonWhitespaceIx.isSome then
      next.lastCandidateIx = state.index ∧ next.lastCandidateWidth = state.width
    else
      next.lastCandidateIx = state.lastCandidateIx ∧
        next.lastCandidateWidth = state.lastCandidateWidth := by
  simp only [put, note]
  split_ifs
  all_goals exact ⟨rfl, rfl⟩

end Put

section Tracks

variable [Field K]

/-- What is carried is right for the open piece: its width, and the last candidate, which no
opportunity follows, and which is one or follows none. -/
structure Tracks (widthForChar : Char → K) (state : WrapLineState K) (unseen : Bool)
    (indent : Nat) (first : LineItem K) (line : List (LineItem K)) : Prop where
  lastWrapIx : state.lastWrapIx = first.ix
  width : state.width = LinePiece.width widthForChar indent (first :: line)
  candidate : state.lastCandidateIx ≠ 0 → ∃ front item back, line = front ++ item :: back ∧
    item.ix = state.lastCandidateIx ∧
    state.lastCandidateWidth = LinePiece.width widthForChar indent (first :: front) ∧
    (∀ other ∈ back, other.opportunity = false) ∧
    (item.opportunity = true ∨ ∀ other ∈ front, other.opportunity = false)
  exists_unseen : unseen = true → ∃ item ∈ line, item.opportunity = true
  seen : state.lastCandidateIx = 0 → ∀ item ∈ line, item.opportunity = true → unseen = true

omit [Field K] in
/-- What is known where `prev_c` is not the previous character. -/
structure Spaces (state : WrapLineState K) (prevC : Char) (line : List (LineItem K)) :
    Prop where
  noSpace : state.prevC = ' ' → prevC ≠ ' ' → ∀ item ∈ line, item.opportunity = false
  lostSpace : prevC = ' ' → state.prevC ≠ ' ' → state.lastCandidateIx = 0

end Tracks

end WrapLineState

section Width

variable [Field K] {widthForChar : Char → K} {indent : Nat} {items : List (LineItem K)}
  {item : LineItem K}

theorem LinePiece.width_concat (widthForChar : Char → K) (indent : Nat)
    (items : List (LineItem K)) (item : LineItem K) :
    LinePiece.width widthForChar indent (items ++ [item]) =
      LinePiece.width widthForChar indent items + item.width widthForChar := by
  rw [width, width, List.map_append, List.sum_append, List.map_singleton, List.sum_singleton,
    add_assoc]

theorem LinePiece.width_append (widthForChar : Char → K) (indent nextIndent : Nat)
    (front back : List (LineItem K)) :
    LinePiece.width widthForChar indent (front ++ back) -
        LinePiece.width widthForChar indent front + widthForChar ' ' * nextIndent =
      LinePiece.width widthForChar nextIndent back := by
  rw [width, width, width, List.map_append, List.sum_append]
  ring

theorem LineItem.width_newline (newline : item.candidate.isNewline = true) :
    item.width widthForChar = 0 :=
  if_pos newline

theorem LineItem.width_visible (visible : item.candidate.isNewline = false) :
    item.width widthForChar = item.candidate.itemWidth widthForChar :=
  if_neg (Bool.eq_false_iff.mp visible)

end Width

namespace WrapLineState

section Step

variable [Field K] {widthForChar : Char → K} {state : WrapLineState K} {prevC : Char}
  {unseen : Bool} {indent : Nat} {first item : LineItem K} {line : List (LineItem K)}

/-- A newline changes nothing. -/
theorem Tracks.putNewline (tracks : state.Tracks widthForChar unseen indent first line)
    (newline : item.candidate.isNewline = true) (noOpportunity : item.opportunity = false)
    (index : Nat) :
    { state with index := index }.Tracks widthForChar unseen indent first (line ++ [item]) := by
  constructor
  · exact tracks.lastWrapIx
  · rw [← List.cons_append, LinePiece.width_concat, LineItem.width_newline newline, add_zero]
    exact tracks.width
  · intro isCandidate
    rcases tracks.candidate isCandidate with ⟨front, ended, back, rfl, place, width, none, last⟩
    refine ⟨front, ended, back ++ [item], by simp, place, width, ?_, last⟩
    rw [List.forall_mem_append, List.forall_mem_singleton]
    exact ⟨none, noOpportunity⟩
  · intro isUnseen
    rcases tracks.exists_unseen isUnseen with ⟨other, member, opportunity⟩
    exact ⟨other, List.mem_append_left _ member, opportunity⟩
  · intro noCandidate other member opportunity
    rcases List.mem_append.mp member with among | isItem
    · exact tracks.seen noCandidate other among opportunity
    · rw [List.mem_singleton.mp isItem, noOpportunity] at opportunity
      cases opportunity

omit [Field K] in
theorem Spaces.putNewline (spaces : state.Spaces prevC line)
    (noOpportunity : item.opportunity = false) (index : Nat) :
    { state with index := index }.Spaces prevC (line ++ [item]) := by
  constructor
  · intro isSpace notSpace
    rw [List.forall_mem_append, List.forall_mem_singleton]
    exact ⟨spaces.noSpace isSpace notSpace, noOpportunity⟩
  · exact spaces.lostSpace

/-- The line goes on with an item, which is noted unless the space before it was lost. -/
theorem Tracks.put (item : LineItem K)
    (tracks : state.Tracks widthForChar unseen indent first line) (spaces : state.Spaces prevC line) (visible : item.candidate.isNewline = false)
    (place : item.ix = state.index)
    (opportunity : item.opportunity =
      item.candidate.mayBreak prevC state.firstNonWhitespaceIx.isSome)
    (behind : first.ix < item.ix) :
    (state.put widthForChar item.candidate).Tracks widthForChar
      (unseen || item.opportunity &&
        !item.candidate.mayBreak state.prevC state.firstNonWhitespaceIx.isSome)
      indent first (line ++ [item]) := by
  have candidate := state.put_candidate widthForChar item.candidate
  dsimp only at candidate
  constructor
  · rw [put_lastWrapIx, tracks.lastWrapIx]
  · rw [put_width, ← List.cons_append, LinePiece.width_concat, LineItem.width_visible visible,
      tracks.width]
  · intro isCandidate
    split_ifs at candidate with noted
    · rw [candidate.1, candidate.2]
      refine ⟨line, item, [], rfl, place, tracks.width, List.forall_mem_nil _, ?_⟩
      by_cases isOpportunity : item.opportunity = true
      · exact Or.inl isOpportunity
      · right
        rw [opportunity] at isOpportunity
        have differs := WrapBoundaryCandidate.space_of_mayBreak noted
          (Bool.eq_false_iff.mpr isOpportunity)
        exact spaces.noSpace differs.1 differs.2
    · rw [candidate.1] at isCandidate ⊢
      rw [candidate.2]
      rcases tracks.candidate isCandidate with ⟨front, ended, back, rfl, at_, width, none, last⟩
      refine ⟨front, ended, back ++ [item], by simp, at_, width, ?_, last⟩
      rw [List.forall_mem_append, List.forall_mem_singleton]
      refine ⟨none, ?_⟩
      by_contra isOpportunity
      rw [Bool.not_eq_false, opportunity] at isOpportunity
      have differs := WrapBoundaryCandidate.space_of_mayBreak isOpportunity
        (Bool.eq_false_iff.mpr noted)
      exact isCandidate (spaces.lostSpace differs.1 differs.2)
  · intro isUnseen
    rw [Bool.or_eq_true, Bool.and_eq_true] at isUnseen
    rcases isUnseen with before | ⟨isOpportunity, _⟩
    · rcases tracks.exists_unseen before with ⟨other, member, isOpportunity⟩
      exact ⟨other, List.mem_append_left _ member, isOpportunity⟩
    · exact ⟨item, List.mem_concat_self, isOpportunity⟩
  · intro noCandidate other member isOpportunity
    split_ifs at candidate with noted
    · rw [candidate.1, ← place] at noCandidate
      omega
    · rw [candidate.1] at noCandidate
      rw [Bool.or_eq_true, Bool.and_eq_true, Bool.not_eq_true', Bool.eq_false_iff]
      rcases List.mem_append.mp member with among | isItem
      · exact Or.inl (tracks.seen noCandidate other among isOpportunity)
      · rw [List.mem_singleton.mp isItem] at isOpportunity
        exact Or.inr ⟨isOpportunity, noted⟩

/-- Unless a boundary is found, the item is the one before the next. -/
theorem Spaces.put (item : LineItem K) (spaces : state.Spaces prevC line)
    (opportunity : item.opportunity =
      item.candidate.mayBreak prevC state.firstNonWhitespaceIx.isSome) :
    { state.put widthForChar item.candidate with
        prevC := item.candidate.newPrevC state.prevC }.Spaces
      (item.candidate.newPrevC prevC) (line ++ [item]) := by
  cases isCandidate : item.candidate with
  | char c =>
      constructor
      · intro isSpace notSpace
        exact absurd isSpace notSpace
      · intro isSpace notSpace
        exact absurd isSpace notSpace
  | element width lenUtf8 =>
      constructor
      · intro isSpace notSpace
        rw [List.forall_mem_append, List.forall_mem_singleton]
        refine ⟨spaces.noSpace isSpace notSpace, ?_⟩
        have noSpace : prevC ≠ ' ' := notSpace
        rw [opportunity, isCandidate]
        simp [WrapBoundaryCandidate.mayBreak, noSpace]
      · intro isSpace notSpace
        have lost : state.prevC ≠ ' ' := notSpace
        have candidate := state.put_candidate widthForChar (.element width lenUtf8)
        simp only [WrapBoundaryCandidate.mayBreak, lost, decide_false, Bool.false_and,
          Bool.false_eq_true, if_false] at candidate
        exact candidate.1.trans (spaces.lostSpace isSpace lost)

/-- The open piece has been broken: at the last candidate, or else at the item. -/
structure Broken (widthForChar : Char → K) (state next : WrapLineState K)
    (item : LineItem K) (line front : List (LineItem K)) (ended : LineItem K)
    (back : List (LineItem K)) : Prop where
  split : line ++ [item] = front ++ ended :: back
  lastWrapIx : next.lastWrapIx = ended.ix
  candidateIx : state.lastCandidateIx ≠ 0 → ended.ix = state.lastCandidateIx
  noCandidate : next.lastCandidateIx = 0
  tracks : next.Tracks widthForChar false (next.indent.getD 0) ended back
  noOpportunity : ∀ other ∈ back, other.opportunity = false
  atItem : state.lastCandidateIx = 0 → ended = item ∧ front = line
  atCandidate : state.lastCandidateIx ≠ 0 →
    ended.opportunity = true ∨ ∀ other ∈ front, other.opportunity = false

@[simp]
theorem breakLine_index (spaceWidth : K) (state : WrapLineState K) (ix : Nat) (itemWidth : K) :
    (state.breakLine spaceWidth ix itemWidth).index = state.index := by
  simp only [breakLine]
  split <;> split_ifs <;> split <;> rfl

@[simp]
theorem breakLine_firstNonWhitespaceIx (spaceWidth : K) (state : WrapLineState K) (ix : Nat)
    (itemWidth : K) : (state.breakLine spaceWidth ix itemWidth).firstNonWhitespaceIx =
      state.firstNonWhitespaceIx := by
  simp only [breakLine]
  split <;> split_ifs <;> split <;> rfl

/-- The new line starts at the last candidate, or with the item. -/
theorem breakLine_cases (spaceWidth : K) (state : WrapLineState K) (ix : Nat) (itemWidth : K) :
    let next := state.breakLine spaceWidth ix itemWidth
    next.lastCandidateIx = 0 ∧
      if state.lastCandidateIx = 0 then
        next.lastWrapIx = ix ∧ next.width = itemWidth + spaceWidth * (next.indent.getD 0 : Nat)
      else
        next.lastWrapIx = state.lastCandidateIx ∧
          next.width = state.width - state.lastCandidateWidth +
            spaceWidth * (next.indent.getD 0 : Nat) := by
  by_cases atItem : state.lastCandidateIx = 0
  · cases indent : state.indent with
    | none =>
        cases first : state.firstNonWhitespaceIx with
        | none => simp [breakLine, indent, first, atItem]
        | some firstNonWhitespaceIx => simp [breakLine, indent, first, atItem]
    | some lineIndent => simp [breakLine, indent, atItem]
  · have positive : 0 < state.lastCandidateIx := Nat.pos_of_ne_zero atItem
    cases indent : state.indent with
    | none =>
        cases first : state.firstNonWhitespaceIx with
        | none => simp [breakLine, indent, first, atItem, positive]
        | some firstNonWhitespaceIx => simp [breakLine, indent, first, atItem, positive]
    | some lineIndent => simp [breakLine, indent, atItem, positive]

/-- A line is broken. -/
theorem Tracks.exists_broken
    (tracks : state.Tracks widthForChar unseen indent first (line ++ [item]))
    (visible : item.candidate.isNewline = false) :
    ∃ front ended back, Broken widthForChar state
      (state.breakLine (widthForChar ' ') item.ix (item.candidate.itemWidth widthForChar)) item line
      front ended back := by
  have broken := state.breakLine_cases (widthForChar ' ') item.ix
    (item.candidate.itemWidth widthForChar)
  dsimp only at broken
  generalize state.breakLine (widthForChar ' ') item.ix (item.candidate.itemWidth widthForChar) =
    next at broken ⊢
  rcases broken with ⟨noCandidate, broken⟩
  have starts : ∀ {ended : LineItem K} {back : List (LineItem K)},
      next.lastWrapIx = ended.ix →
      next.width = LinePiece.width widthForChar (next.indent.getD 0) (ended :: back) →
      (∀ other ∈ back, other.opportunity = false) →
      next.Tracks widthForChar false (next.indent.getD 0) ended back := by
    intro ended back lastWrapIx width none
    refine ⟨lastWrapIx, width, fun isCandidate => absurd noCandidate isCandidate, nofun, ?_⟩
    intro _ other member opportunity
    rw [none other member] at opportunity
    cases opportunity
  split_ifs at broken with atItem
  · have width : next.width = LinePiece.width widthForChar (next.indent.getD 0) [item] := by
      rw [broken.2, LinePiece.width, List.map_singleton, List.sum_singleton,
        LineItem.width_visible visible, add_comm]
    exact ⟨line, item, [], rfl, broken.1, fun isCandidate => absurd atItem isCandidate,
      noCandidate, starts broken.1 width (List.forall_mem_nil _), List.forall_mem_nil _, fun _ => ⟨rfl, rfl⟩,
      fun isCandidate => absurd atItem isCandidate⟩
  · rcases tracks.candidate atItem with ⟨front, ended, back, split, place, lastWidth, none, last⟩
    have lastWrapIx : next.lastWrapIx = ended.ix := broken.1.trans place.symm
    have width : next.width =
        LinePiece.width widthForChar (next.indent.getD 0) (ended :: back) := by
      rw [broken.2, lastWidth, tracks.width, split, ← List.cons_append, LinePiece.width_append]
    exact ⟨front, ended, back, split, lastWrapIx, fun _ => place, noCandidate,
      starts lastWrapIx width none, none, fun isItem => absurd isItem atItem, fun _ => last⟩

/-- The line is broken at the item. -/
theorem Broken.eq_of_ix {next : WrapLineState K} {front back : List (LineItem K)}
    {ended : LineItem K} (broken : Broken widthForChar state next item line front ended back)
    (behind : ∀ other ∈ line, other.ix < item.ix) (same : ended.ix = item.ix) :
    ended = item ∧ front = line := by
  have isItem : ended = item := by
    have member : ended ∈ line ++ [item] := by
      rw [broken.split]
      exact List.mem_append_right _ List.mem_cons_self
    rcases List.mem_append.mp member with among | isItem
    · exact absurd same (behind ended among).ne
    · exact List.mem_singleton.mp isItem
  refine ⟨isItem, ?_⟩
  have split := broken.split
  rw [isItem] at split
  rcases List.eq_nil_or_concat back with rfl | ⟨earlier, last, rfl⟩
  · exact (List.append_inj_left' split rfl).symm
  · rw [List.concat_eq_append, ← List.cons_append, ← List.append_assoc] at split
    have isLine := List.append_inj_left' split rfl
    have among : item ∈ line := by
      rw [isLine]
      exact List.mem_append_right _ List.mem_cons_self
    exact absurd rfl (behind item among).ne

/-- The item is on the new line. -/
theorem Broken.item_mem {next : WrapLineState K} {front back : List (LineItem K)}
    {ended : LineItem K} (broken : Broken widthForChar state next item line front ended back) :
    item ∈ ended :: back := by
  have last := congrArg List.getLast? broken.split
  rw [List.getLast?_concat, List.getLast?_append_cons] at last
  exact List.mem_of_getLast? last.symm

end Step

end WrapLineState

/-! ## Items -/

section Items

variable {candidate : WrapBoundaryCandidate K} {candidates : List (WrapBoundaryCandidate K)}

theorem lineItems_newline (newline : candidate.isNewline = true)
    (candidates : List (WrapBoundaryCandidate K)) (ix : Nat) (prevC : Char)
    (indented inWord : Bool) :
    lineItems ix prevC indented inWord (candidate :: candidates) =
      ⟨candidate, ix, false, false⟩ ::
        lineItems (ix + candidate.lenUtf8) prevC indented false candidates := by
  rw [lineItems, if_pos newline]

theorem lineItems_visible (visible : candidate.isNewline = false)
    (candidates : List (WrapBoundaryCandidate K)) (ix : Nat) (prevC : Char)
    (indented inWord : Bool) :
    lineItems ix prevC indented inWord (candidate :: candidates) =
      ⟨candidate, ix, candidate.mayBreak prevC indented, inWord && candidate.isWord⟩ ::
        lineItems (ix + candidate.lenUtf8) (candidate.newPrevC prevC)
          (indented || !candidate.isSpace) candidate.isWord candidates := by
  rw [lineItems, if_neg (Bool.eq_false_iff.mp visible)]

theorem lineItems_map_candidate (candidates : List (WrapBoundaryCandidate K)) (ix : Nat) (prevC : Char) (indented inWord : Bool) :
    (lineItems ix prevC indented inWord candidates).map LineItem.candidate = candidates := by
  induction candidates generalizing ix prevC indented inWord with
  | nil => rfl
  | cons candidate candidates ih =>
      cases newline : candidate.isNewline with
      | true => rw [lineItems_newline newline, List.map_cons, ih]
      | false => rw [lineItems_visible newline, List.map_cons, ih]

/-- The items are between the start and the end of the text. -/
theorem lineItems_bounds (positive : ∀ candidate ∈ candidates, 1 ≤ candidate.lenUtf8)
    (ix : Nat) (prevC : Char) (indented inWord : Bool) :
    ∀ item ∈ lineItems ix prevC indented inWord candidates, ix ≤ item.ix ∧
      item.ix < ix + (candidates.map WrapBoundaryCandidate.lenUtf8).sum := by
  induction candidates generalizing ix prevC indented inWord with
  | nil =>
      intro item member
      cases member
  | cons candidate candidates ih =>
      rw [List.forall_mem_cons] at positive
      have rest := fun prevC indented inWord item member =>
        ih positive.2 (ix + candidate.lenUtf8) prevC indented inWord item member
      rw [List.map_cons, List.sum_cons]
      cases newline : candidate.isNewline with
      | true =>
          rw [lineItems_newline newline, List.forall_mem_cons]
          refine ⟨⟨le_rfl, by dsimp only; omega⟩, ?_⟩
          intro item member
          have bounds := rest _ _ _ item member
          omega
      | false =>
          rw [lineItems_visible newline, List.forall_mem_cons]
          refine ⟨⟨le_rfl, by dsimp only; omega⟩, ?_⟩
          intro item member
          have bounds := rest _ _ _ item member
          omega

theorem lineItems_increasing (positive : ∀ candidate ∈ candidates, 1 ≤ candidate.lenUtf8)
    (ix : Nat) (prevC : Char) (indented inWord : Bool) :
    (lineItems ix prevC indented inWord candidates).Pairwise
      fun before after => before.ix < after.ix := by
  induction candidates generalizing ix prevC indented inWord with
  | nil => exact List.Pairwise.nil
  | cons candidate candidates ih =>
      rw [List.forall_mem_cons] at positive
      have behind := fun prevC indented inWord item member =>
        (lineItems_bounds positive.2 (ix + candidate.lenUtf8) prevC indented inWord item member).1
      cases newline : candidate.isNewline with
      | true =>
          rw [lineItems_newline newline]
          refine List.Pairwise.cons ?_ (ih positive.2 _ _ _ _)
          intro item member
          have after := behind _ _ _ item member
          dsimp only
          omega
      | false =>
          rw [lineItems_visible newline]
          refine List.Pairwise.cons ?_ (ih positive.2 _ _ _ _)
          intro item member
          have after := behind _ _ _ item member
          dsimp only
          omega

end Items

/-! ## Along the line -/

section Along

variable [Field K] [LinearOrder K]

/-- A width that is not negative and a place of its own. -/
def WrapBoundaryCandidate.Solid (widthForChar : Char → K) (self : WrapBoundaryCandidate K) :
    Prop :=
  0 ≤ self.itemWidth widthForChar ∧ 1 ≤ self.lenUtf8

/-- What holds before each iteration, the candidates being those that follow. -/
structure Along (widthForChar : Char → K) (all : List (LineItem K))
    (boundaries : List Boundary) (state : WrapLineState K) (prevC : Char) (inWord unseen : Bool)
    (closed : List (LinePiece K)) (indent : Nat) (first : LineItem K) (line : List (LineItem K))
    (candidates : List (WrapBoundaryCandidate K)) : Prop where
  openPiece : OpenPiece all boundaries closed indent first line
    (lineItems state.index prevC state.firstNonWhitespaceIx.isSome inWord candidates)
  tracks : state.Tracks widthForChar unseen indent first line
  spaces : state.Spaces prevC line
  word : inWord = true → prevC ≠ ' '
  exclusive : ∀ item ∈ line, item.insideWord = true → item.opportunity = false
  nonneg : ∀ item ∈ line, 0 ≤ item.width widthForChar

namespace Along

variable {widthForChar : Char → K} {wrapWidth : K} {all : List (LineItem K)}
  {boundaries : List Boundary} {state next : WrapLineState K} {prevC : Char}
  {inWord unseen : Bool} {closed : List (LinePiece K)} {indent : Nat} {first : LineItem K}
  {line : List (LineItem K)} {candidate : WrapBoundaryCandidate K}
  {candidates : List (WrapBoundaryCandidate K)} {boundary : Boundary}

theorem step_newline (newline : candidate.isNewline = true) :
    state.step widthForChar wrapWidth candidate =
      (none, { state with index := state.index + candidate.lenUtf8 }) := by
  rw [WrapLineState.step, if_pos newline]

/-- After a newline. -/
theorem newline
    (along : Along widthForChar all boundaries state prevC inWord unseen closed indent first line
      (candidate :: candidates)) (newline : candidate.isNewline = true) :
    Along widthForChar all boundaries { state with index := state.index + candidate.lenUtf8 } prevC
      false unseen closed indent first (line ++ [⟨candidate, state.index, false, false⟩])
      candidates := by
  have openPiece := along.openPiece
  rw [lineItems_newline newline] at openPiece
  refine ⟨openPiece.put, along.tracks.putNewline newline rfl _, along.spaces.putNewline rfl _,
    nofun, ?_, ?_⟩
  · rw [List.forall_mem_append, List.forall_mem_singleton]
    exact ⟨along.exclusive, fun _ => rfl⟩
  · rw [List.forall_mem_append, List.forall_mem_singleton]
    exact ⟨along.nonneg, (LineItem.width_newline newline).ge⟩

/-- The next item of the line. -/
def item (state : WrapLineState K) (prevC : Char) (inWord : Bool)
    (candidate : WrapBoundaryCandidate K) : LineItem K :=
  ⟨candidate, state.index, candidate.mayBreak prevC state.firstNonWhitespaceIx.isSome,
    inWord && candidate.isWord⟩

/-- An opportunity is not noted. -/
def misses (state : WrapLineState K) (prevC : Char) (candidate : WrapBoundaryCandidate K) :
    Bool :=
  candidate.mayBreak prevC state.firstNonWhitespaceIx.isSome &&
    !candidate.mayBreak state.prevC state.firstNonWhitespaceIx.isSome

theorem openItem
    (along : Along widthForChar all boundaries state prevC inWord unseen closed indent first line
      (candidate :: candidates)) (visible : candidate.isNewline = false) :
    OpenPiece all boundaries closed indent first (line ++ [item state prevC inWord candidate])
      (lineItems (state.index + candidate.lenUtf8) (candidate.newPrevC prevC)
        (state.firstNonWhitespaceIx.isSome || !candidate.isSpace) candidate.isWord
        candidates) := by
  have openPiece := along.openPiece
  rw [lineItems_visible visible] at openPiece
  exact openPiece.put

/-- The item is behind those of the line. -/
theorem behind
    (along : Along widthForChar all boundaries state prevC inWord unseen closed indent first line
      (candidate :: candidates)) (visible : candidate.isNewline = false) :
    ∀ other ∈ first :: line, other.ix < state.index := by
  have increasing := (along.openItem visible).increasing
  rw [← List.cons_append, List.append_assoc, List.pairwise_append] at increasing
  intro other member
  exact increasing.2.2 other member (item state prevC inWord candidate) List.mem_cons_self

theorem item_exclusive
    (along : Along widthForChar all boundaries state prevC inWord unseen closed indent first line
      (candidate :: candidates)) :
    (item state prevC inWord candidate).insideWord = true →
      (item state prevC inWord candidate).opportunity = false := by
  intro inside
  rcases Bool.and_eq_true_iff.mp inside with ⟨goesOn, word⟩
  by_contra opportunity
  exact along.word goesOn
    (WrapBoundaryCandidate.space_of_isWord (Bool.not_eq_false _ ▸ opportunity) word)

theorem exclusive_item
    (along : Along widthForChar all boundaries state prevC inWord unseen closed indent first line
      (candidate :: candidates)) :
    ∀ other ∈ line ++ [item state prevC inWord candidate],
      other.insideWord = true → other.opportunity = false := by
  rw [List.forall_mem_append, List.forall_mem_singleton]
  exact ⟨along.exclusive, along.item_exclusive⟩

theorem nonneg_item
    (along : Along widthForChar all boundaries state prevC inWord unseen closed indent first line
      (candidate :: candidates)) (visible : candidate.isNewline = false)
    (solid : candidate.Solid widthForChar) :
    ∀ other ∈ line ++ [item state prevC inWord candidate], 0 ≤ other.width widthForChar := by
  rw [List.forall_mem_append, List.forall_mem_singleton]
  refine ⟨along.nonneg, ?_⟩
  rw [LineItem.width_visible visible]
  exact solid.1

omit [Field K] [LinearOrder K] in
theorem word_ne_space (word : candidate.isWord = true) : candidate.newPrevC prevC ≠ ' ' := by
  cases candidate with
  | char c =>
      intro space
      rw [WrapBoundaryCandidate.isWord] at word
      rw [show c = ' ' from space] at word
      exact absurd word (by decide)
  | element width lenUtf8 => cases word

theorem tracks_item
    (along : Along widthForChar all boundaries state prevC inWord unseen closed indent first line
      (candidate :: candidates)) (visible : candidate.isNewline = false) :
    (state.put widthForChar candidate).Tracks widthForChar (unseen || misses state prevC candidate)
      indent first (line ++ [item state prevC inWord candidate]) :=
  along.tracks.put (item state prevC inWord candidate) along.spaces visible rfl rfl
    (along.behind visible first List.mem_cons_self)

theorem step_visible (visible : candidate.isNewline = false)
    {found : Option Boundary}
    (steps : state.step widthForChar wrapWidth candidate = (found, next)) :
    next.index = state.index + candidate.lenUtf8 ∧
      next.firstNonWhitespaceIx.isSome =
        (state.firstNonWhitespaceIx.isSome || !candidate.isSpace) := by
  rw [WrapLineState.step, if_neg (Bool.eq_false_iff.mp visible)] at steps
  dsimp only at steps
  split_ifs at steps
  · rw [← (Prod.mk.inj steps).2]
    simp
  · rw [← (Prod.mk.inj steps).2]
    exact ⟨state.put_index widthForChar candidate,
      state.put_firstNonWhitespaceIx widthForChar candidate⟩

/-- The line goes on. -/
theorem next_none
    (along : Along widthForChar all boundaries state prevC inWord unseen closed indent first line
      (candidate :: candidates)) (visible : candidate.isNewline = false)
    (solid : candidate.Solid widthForChar)
    (steps : state.step widthForChar wrapWidth candidate = (none, next)) :
    next.width ≤ wrapWidth ∧
      Along widthForChar all boundaries next (candidate.newPrevC prevC) candidate.isWord
        (unseen || misses state prevC candidate) closed indent first
        (line ++ [item state prevC inWord candidate]) candidates := by
  have tracks := along.tracks_item visible
  rw [WrapLineState.step, if_neg (Bool.eq_false_iff.mp visible)] at steps
  dsimp only at steps
  split_ifs at steps with tooWide
  · cases (Prod.mk.inj steps).1
  rcases Prod.mk.inj steps with ⟨_, rfl⟩
  constructor
  · by_contra wide
    apply tooWide
    refine ⟨not_le.mp wide, ?_⟩
    rw [WrapLineState.put_lastWrapIx, along.tracks.lastWrapIx]
    exact along.behind visible first List.mem_cons_self
  · refine ⟨?_, ⟨tracks.lastWrapIx, tracks.width, tracks.candidate, tracks.exists_unseen,
      tracks.seen⟩, ?_, word_ne_space, along.exclusive_item, along.nonneg_item visible solid⟩
    · have openPiece := along.openItem visible
      rw [← WrapLineState.put_firstNonWhitespaceIx widthForChar] at openPiece
      exact openPiece
    · rw [WrapLineState.put_prevC]
      exact along.spaces.put (item state prevC inWord candidate) rfl

/-- The line is broken. -/
theorem next_some
    (along : Along widthForChar all boundaries state prevC inWord unseen closed indent first line
      (candidate :: candidates)) (visible : candidate.isNewline = false)
    (solid : candidate.Solid widthForChar)
    (steps : state.step widthForChar wrapWidth candidate = (some boundary, next)) :
    wrapWidth < state.width + candidate.itemWidth widthForChar ∧ ∃ front ended back,
      WrapLineState.Broken widthForChar (state.put widthForChar candidate) next
        (item state prevC inWord candidate) line front ended back ∧
      Along widthForChar all (boundaries ++ [boundary]) next (candidate.newPrevC prevC)
        candidate.isWord false (closed ++ [⟨indent, first :: front, some ended⟩])
        (next.indent.getD 0) ended back candidates := by
  rw [WrapLineState.step, if_neg (Bool.eq_false_iff.mp visible)] at steps
  dsimp only at steps
  split_ifs at steps with tooWide
  swap
  · cases (Prod.mk.inj steps).1
  rcases Prod.mk.inj steps with ⟨isBoundary, isNext⟩
  rw [WrapLineState.put_width] at tooWide
  refine ⟨tooWide.1, ?_⟩
  have exists_ := (along.tracks_item visible).exists_broken visible
  dsimp only [item] at exists_
  rw [isNext] at exists_ isBoundary
  rcases exists_ with ⟨front, ended, back, broken⟩
  refine ⟨front, ended, back, broken, ?_⟩
  have backMember : ∀ other ∈ back, other ∈ line ++ [item state prevC inWord candidate] := by
    intro other member
    rw [item, broken.split]
    exact List.mem_append_right _ (List.mem_cons_of_mem _ member)
  have index : next.index = state.index + candidate.lenUtf8 := by
    rw [← isNext, WrapLineState.breakLine_index, WrapLineState.put_index]
  have indented : next.firstNonWhitespaceIx.isSome =
      (state.firstNonWhitespaceIx.isSome || !candidate.isSpace) := by
    rw [← isNext, WrapLineState.breakLine_firstNonWhitespaceIx,
      WrapLineState.put_firstNonWhitespaceIx]
  refine ⟨?_, broken.tracks, ⟨fun _ _ => broken.noOpportunity, fun _ _ => broken.noCandidate⟩,
    word_ne_space, fun other member => along.exclusive_item other (backMember other member),
    fun other member => along.nonneg_item visible solid other (backMember other member)⟩
  have openPiece := along.openItem visible
  rw [item, broken.split, ← index, ← indented] at openPiece
  rw [← Option.some.inj isBoundary, broken.lastWrapIx]
  exact openPiece.divide _

/-- The piece that is closed keeps its words unless the line is broken at the item, inside a
word, and has an opportunity that was not noted. -/
theorem keepsWords_iff
    (along : Along widthForChar all boundaries state prevC inWord unseen closed indent first line
      (candidate :: candidates)) (visible : candidate.isNewline = false)
    {front back : List (LineItem K)} {ended : LineItem K}
    (broken : WrapLineState.Broken widthForChar (state.put widthForChar candidate) next
      (item state prevC inWord candidate) line front ended back) :
    (⟨indent, first :: front, some ended⟩ : LinePiece K).KeepsWords ↔
      (next.lastWrapIx = state.index → (inWord && candidate.isWord) = true → unseen = false) := by
  have unfolded : (⟨indent, first :: front, some ended⟩ : LinePiece K).KeepsWords ↔
      (ended.insideWord = true → ∀ other ∈ front, other.opportunity = false) := by
    constructor
    · intro keeps
      exact keeps ended rfl
    · rintro keeps _ ⟨⟩
      exact keeps
  rw [unfolded, broken.lastWrapIx]
  by_cases same : ended.ix = state.index
  · rcases broken.eq_of_ix (fun other member => along.behind visible other
      (List.mem_cons_of_mem _ member)) same with ⟨rfl, rfl⟩
    rw [forall_prop_of_true same]
    apply forall_congr'
    intro inside
    have noOpportunity := along.item_exclusive inside
    constructor
    · intro none
      by_contra isUnseen
      rcases along.tracks.exists_unseen (Bool.not_eq_false _ ▸ isUnseen) with
        ⟨other, member, opportunity⟩
      rw [none other member] at opportunity
      cases opportunity
    · rintro rfl
      by_cases atItem : (state.put widthForChar candidate).lastCandidateIx = 0
      · intro other member
        by_contra opportunity
        have missed := (along.tracks_item visible).seen atItem other
          (List.mem_append_left _ member) (Bool.not_eq_false _ ▸ opportunity)
        have isOpportunity : (item state prevC inWord candidate).opportunity = true :=
          (Bool.and_eq_true_iff.mp missed).1
        rw [noOpportunity] at isOpportunity
        cases isOpportunity
      · rcases broken.atCandidate atItem with opportunity | none
        · rw [noOpportunity] at opportunity
          cases opportunity
        · exact none
  · refine iff_of_true ?_ fun isItem => absurd isItem same
    intro inside
    have member : ended ∈ line ++ [item state prevC inWord candidate] := by
      rw [broken.split]
      exact List.mem_append_right _ List.mem_cons_self
    have noOpportunity := along.exclusive_item ended member inside
    by_cases atItem : (state.put widthForChar candidate).lastCandidateIx = 0
    · exact absurd (congrArg LineItem.ix (broken.atItem atItem).1) same
    · rcases broken.atCandidate atItem with opportunity | none
      · rw [noOpportunity] at opportunity
        cases opportunity
      · exact none

/-- The open piece fits, or there is nothing in it but newlines to break it at. -/
def OpenFits (widthForChar : Char → K) (wrapWidth : K) (indent : Nat) (first : LineItem K)
    (line : List (LineItem K)) : Prop :=
  LinePiece.width widthForChar indent (first :: line) ≤ wrapWidth ∨
    ∀ item ∈ line, item.candidate.isNewline = true

variable [IsStrictOrderedRing K]

/-- So does the piece that is closed. -/
theorem closedFits
    (along : Along widthForChar all boundaries state prevC inWord unseen closed indent first line
      (candidate :: candidates))
    (openFits : OpenFits widthForChar wrapWidth indent first line)
    {front back : List (LineItem K)} {ended : LineItem K}
    (broken : WrapLineState.Broken widthForChar (state.put widthForChar candidate) next
      (item state prevC inWord candidate) line front ended back) :
    (⟨indent, first :: front, some ended⟩ : LinePiece K).Fits widthForChar wrapWidth := by
  have isPrefix : front <+: line := by
    have lengths := congrArg List.length broken.split
    rw [List.length_append, List.length_append, List.length_singleton, List.length_cons] at lengths
    have longer : front <+: line ++ [item state prevC inWord candidate] := by
      rw [broken.split]
      exact List.prefix_append _ _
    exact List.prefix_of_prefix_length_le longer (List.prefix_append _ _) (by omega)
  rcases openFits with fits | newlines
  · left
    rcases isPrefix with ⟨more, rfl⟩
    have nonneg : 0 ≤ (more.map (LineItem.width widthForChar)).sum := by
      apply List.sum_nonneg
      rw [List.forall_mem_map]
      exact fun other member => along.nonneg other (List.mem_append_right _ member)
    have total : LinePiece.width widthForChar indent (first :: (front ++ more)) =
        LinePiece.width widthForChar indent (first :: front) +
          (more.map (LineItem.width widthForChar)).sum := by
      rw [← List.cons_append, LinePiece.width, LinePiece.width, List.map_append, List.sum_append,
        add_assoc]
    dsimp only
    linarith
  · exact Or.inr fun other member => newlines other (isPrefix.subset member)

omit [IsStrictOrderedRing K] in
/-- Newlines give no boundary. -/
theorem boundaries_newlines (newlines : ∀ candidate ∈ candidates, candidate.isNewline = true) :
    state.boundaries widthForChar wrapWidth candidates = [] := by
  induction candidates generalizing state with
  | nil => rfl
  | cons candidate candidates ih =>
      rw [List.forall_mem_cons] at newlines
      rw [WrapLineState.boundaries, step_newline newlines.1]
      exact ih newlines.2

omit [IsStrictOrderedRing K] in
theorem settles_newlines {items : List (LineItem K)}
    (newlines : ∀ item ∈ items, item.candidate.isNewline = true) :
    state.Settles widthForChar wrapWidth items unseen := by
  induction items generalizing state unseen with
  | nil => trivial
  | cons item items ih =>
      rw [List.forall_mem_cons] at newlines
      rw [WrapLineState.Settles, step_newline newlines.1]
      exact ih newlines.2

/-- A piece that is too wide, and could have been broken, is closed like that at the next
item. -/
theorem not_fits
    (along : Along widthForChar all boundaries state prevC inWord unseen closed indent first line
      candidates) (solid : ∀ candidate ∈ candidates, candidate.Solid widthForChar)
    (noCandidate : state.lastCandidateIx = 0) (tooWide : wrapWidth < state.width)
    (breakable : ∃ item ∈ line, item.candidate.isNewline = false)
    (later : ∃ candidate ∈ candidates, candidate.isNewline = false) :
    ∃ piece ∈ linePieces 0 all
        (boundaries ++ state.boundaries widthForChar wrapWidth candidates),
      piece.next.isSome ∧ ¬ piece.Fits widthForChar wrapWidth := by
  induction candidates generalizing state inWord line with
  | nil =>
      rcases later with ⟨_, none, _⟩
      cases none
  | cons candidate candidates ih =>
      rw [List.forall_mem_cons] at solid
      cases newline : candidate.isNewline with
      | true =>
          rw [WrapLineState.boundaries, step_newline newline]
          apply ih (along.newline newline) solid.2 noCandidate tooWide
          · rcases breakable with ⟨item, member, visible⟩
            exact ⟨item, List.mem_append_left _ member, visible⟩
          · rcases later with ⟨late, member, visible⟩
            rcases List.mem_cons.mp member with rfl | among
            · rw [newline] at visible
              cases visible
            · exact ⟨late, among, visible⟩
      | false =>
          rw [WrapLineState.boundaries]
          cases steps : state.step widthForChar wrapWidth candidate with
          | mk found next =>
              cases found with
              | none =>
                  rcases along.next_none newline solid.1 steps with ⟨fits, goesOn⟩
                  have width := goesOn.tracks.width
                  rw [← List.cons_append, LinePiece.width_concat, ← along.tracks.width,
                    LineItem.width_visible newline] at width
                  have wider : 0 ≤ candidate.itemWidth widthForChar := solid.1.1
                  have isWide : next.width = state.width + candidate.itemWidth widthForChar := width
                  linarith
              | some boundary =>
                  rcases (along.next_some newline solid.1 steps).2 with
                    ⟨front, ended, back, broken, goesOn⟩
                  have atItem : ended.ix = state.index := by
                    by_cases none : (state.put widthForChar candidate).lastCandidateIx = 0
                    · rw [(broken.atItem none).1]
                      rfl
                    · have isCandidate := state.put_candidate widthForChar candidate
                      dsimp only at isCandidate
                      split_ifs at isCandidate
                      · exact (broken.candidateIx none).trans isCandidate.1
                      · exact absurd (isCandidate.1.trans noCandidate) none
                  rcases broken.eq_of_ix (fun other member => along.behind newline other
                    (List.mem_cons_of_mem _ member)) atItem with ⟨rfl, rfl⟩
                  refine ⟨⟨indent, first :: front, some (item state prevC inWord candidate)⟩, ?_, rfl,
                    ?_⟩
                  · have stays := linePieces_append goesOn.openPiece.pieces
                      (next.boundaries widthForChar wrapWidth candidates)
                    rw [List.append_assoc] at stays
                    exact stays _ List.mem_concat_self
                  · rintro (fits | newlines)
                    · exact absurd (tooWide.trans_eq along.tracks.width) (not_lt.mpr fits)
                    · rcases breakable with ⟨other, member, visible⟩
                      rw [newlines other member] at visible
                      cases visible

/-- Where a line has been broken, the item is settled or will be on a piece that is too wide. -/
theorem pieces_iff_of_broken
    (along : Along widthForChar all boundaries state prevC inWord unseen closed indent first line
      (candidate :: candidates)) (visible : candidate.isNewline = false)
    (solid : ∀ candidate ∈ candidates, candidate.Solid widthForChar)
    {front back : List (LineItem K)} {ended : LineItem K} {nextPrevC : Char} {nextInWord : Bool}
    {nextClosed : List (LinePiece K)} {nextBoundaries : List Boundary}
    (broken : WrapLineState.Broken widthForChar (state.put widthForChar candidate) next
      (item state prevC inWord candidate) line front ended back)
    (goesOn : Along widthForChar all nextBoundaries next nextPrevC nextInWord false nextClosed
      (next.indent.getD 0) ended back candidates)
    (rests : OpenFits widthForChar wrapWidth (next.indent.getD 0) ended back →
      ((∀ piece ∈ linePieces 0 all
          (nextBoundaries ++ next.boundaries widthForChar wrapWidth candidates),
        piece.next.isSome → piece.Fits widthForChar wrapWidth ∧ piece.KeepsWords) ↔
        next.Settles widthForChar wrapWidth (lineItems next.index nextPrevC
          next.firstNonWhitespaceIx.isSome nextInWord candidates) false))
    (quiet : ∀ piece ∈ linePieces 0 all nextBoundaries, piece.next.isSome →
      piece.Fits widthForChar wrapWidth ∧ piece.KeepsWords) :
    (∀ piece ∈ linePieces 0 all (nextBoundaries ++ next.boundaries widthForChar wrapWidth candidates),
        piece.next.isSome → piece.Fits widthForChar wrapWidth ∧ piece.KeepsWords) ↔
      (next.width ≤ wrapWidth ∨ next.lastWrapIx = state.index ∨
          ∀ later ∈ lineItems next.index nextPrevC next.firstNonWhitespaceIx.isSome nextInWord
            candidates, later.candidate.isNewline = true) ∧
        next.Settles widthForChar wrapWidth (lineItems next.index nextPrevC
          next.firstNonWhitespaceIx.isSome nextInWord candidates) false := by
  by_cases settled : next.width ≤ wrapWidth ∨ next.lastWrapIx = state.index ∨
      ∀ later ∈ lineItems next.index nextPrevC next.firstNonWhitespaceIx.isSome nextInWord
        candidates, later.candidate.isNewline = true
  · rw [and_iff_right settled]
    rcases settled with fits | starts | newlines
    · exact rests (Or.inl (goesOn.tracks.width ▸ fits))
    · have atItem := broken.eq_of_ix (fun other member => along.behind visible other
        (List.mem_cons_of_mem _ member)) (broken.lastWrapIx.symm.trans starts)
      have split := broken.split
      rw [atItem.1, atItem.2] at split
      have alone := (List.cons.inj (List.append_cancel_left split)).2
      apply rests
      right
      rw [← alone]
      exact List.forall_mem_nil _
    · have none : ∀ candidate ∈ candidates, candidate.isNewline = true := by
        rw [← lineItems_map_candidate candidates next.index nextPrevC
          next.firstNonWhitespaceIx.isSome nextInWord, List.forall_mem_map]
        exact newlines
      rw [boundaries_newlines none, List.append_nil]
      exact iff_of_true quiet (settles_newlines newlines)
  · refine iff_of_false ?_ fun both => settled both.1
    intro all
    rw [not_or, not_or] at settled
    rcases settled with ⟨wide, moved, more⟩
    have breakable : item state prevC inWord candidate ∈ back := by
      rcases List.mem_cons.mp broken.item_mem with isEnded | among
      · exact absurd (broken.lastWrapIx.trans (congrArg LineItem.ix isEnded).symm) moved
      · exact among
    have later : ∃ candidate ∈ candidates, candidate.isNewline = false := by
      by_contra none
      apply more
      intro item member
      by_contra content
      apply none
      refine ⟨item.candidate, ?_, Bool.not_eq_true _ ▸ content⟩
      rw [← lineItems_map_candidate candidates next.index nextPrevC
        next.firstNonWhitespaceIx.isSome nextInWord]
      exact List.mem_map_of_mem member
    rcases goesOn.not_fits solid broken.noCandidate (not_le.mp wide) ⟨_, breakable, visible⟩ later
      with ⟨piece, member, isClosed, overflows⟩
    exact overflows (all piece member isClosed).1

/-- The pieces are as expected if the loop settles every item. -/
theorem pieces_iff (wrapWidth : K)
    (along : Along widthForChar all boundaries state prevC inWord unseen closed indent first line
      candidates) (solid : ∀ candidate ∈ candidates, candidate.Solid widthForChar)
    (closedGood : ∀ piece ∈ closed, piece.Fits widthForChar wrapWidth ∧ piece.KeepsWords)
    (openFits : OpenFits widthForChar wrapWidth indent first line) :
    (∀ piece ∈ linePieces 0 all (boundaries ++ state.boundaries widthForChar wrapWidth candidates),
        piece.next.isSome → piece.Fits widthForChar wrapWidth ∧ piece.KeepsWords) ↔
      state.Settles widthForChar wrapWidth
        (lineItems state.index prevC state.firstNonWhitespaceIx.isSome inWord candidates)
        unseen := by
  have allClosed : ∀ {boundaries : List Boundary} {closed : List (LinePiece K)}
      {last : LinePiece K}, linePieces 0 all boundaries = closed ++ [last] → last.next = none →
      (∀ piece ∈ closed, piece.Fits widthForChar wrapWidth ∧ piece.KeepsWords) →
      ∀ piece ∈ linePieces 0 all boundaries, piece.next.isSome →
        piece.Fits widthForChar wrapWidth ∧ piece.KeepsWords := by
    intro boundaries closed last pieces isLast good piece member isSome
    rw [pieces] at member
    rcases List.mem_append.mp member with among | isOpen
    · exact good piece among
    · rw [List.mem_singleton.mp isOpen, isLast] at isSome
      cases isSome
  induction candidates generalizing boundaries state prevC inWord unseen closed indent first line with
  | nil =>
      rw [WrapLineState.boundaries, List.append_nil]
      exact iff_of_true (allClosed along.openPiece.pieces rfl closedGood) trivial
  | cons candidate candidates ih =>
      have solidRest := (List.forall_mem_cons.mp solid).2
      have solidHere := (List.forall_mem_cons.mp solid).1
      cases newline : candidate.isNewline with
      | true =>
          rw [WrapLineState.boundaries, step_newline newline, lineItems_newline newline,
            WrapLineState.Settles, step_newline newline, Bool.false_and, Bool.or_false]
          apply ih (along.newline newline) solidRest closedGood
          rcases openFits with fits | newlines
          · left
            rw [← List.cons_append, LinePiece.width_concat, LineItem.width_newline newline, add_zero]
            exact fits
          · right
            rw [List.forall_mem_append, List.forall_mem_singleton]
            exact ⟨newlines, newline⟩
      | false =>
          rw [WrapLineState.boundaries, lineItems_visible newline, WrapLineState.Settles]
          dsimp only
          cases steps : state.step widthForChar wrapWidth candidate with
          | mk found next =>
              cases found with
              | none =>
                  rcases along.next_none newline solidHere steps with ⟨fits, goesOn⟩
                  dsimp only
                  rw [← (step_visible newline steps).1, ← (step_visible newline steps).2]
                  exact ih goesOn solidRest closedGood (Or.inl (goesOn.tracks.width ▸ fits))
              | some boundary =>
                  rcases (along.next_some newline solidHere steps).2 with
                    ⟨front, ended, back, broken, goesOn⟩
                  dsimp only
                  rw [← (step_visible newline steps).1, ← (step_visible newline steps).2,
                    List.append_cons, and_left_comm]
                  have closedFits := along.closedFits openFits broken
                  have isClosed := linePieces_append goesOn.openPiece.pieces
                    (next.boundaries widthForChar wrapWidth candidates) _ List.mem_concat_self
                  by_cases words : next.lastWrapIx = state.index →
                      (inWord && candidate.isWord) = true → unseen = false
                  · rw [and_iff_right words]
                    have keeps := (along.keepsWords_iff newline broken).mpr words
                    have good : ∀ piece ∈ closed ++ [⟨indent, first :: front, some ended⟩],
                        piece.Fits widthForChar wrapWidth ∧ piece.KeepsWords := by
                      rw [List.forall_mem_append, List.forall_mem_singleton]
                      exact ⟨closedGood, closedFits, keeps⟩
                    exact along.pieces_iff_of_broken newline solidRest broken goesOn
                      (fun openFits => ih goesOn solidRest good openFits)
                      (allClosed goesOn.openPiece.pieces rfl good)
                  · refine iff_of_false ?_ fun all => words all.1
                    intro all
                    exact words ((along.keepsWords_iff newline broken).mp (all _ isClosed rfl).2)

omit [IsStrictOrderedRing K] in
/-- The boundaries are places of items other than the first. -/
theorem places (wrapWidth : K)
    (along : Along widthForChar all boundaries state prevC inWord unseen closed indent first line
      candidates) (solid : ∀ candidate ∈ candidates, candidate.Solid widthForChar) :
    ((boundaries ++ state.boundaries widthForChar wrapWidth candidates).map Boundary.ix).Sublist
      (all.tail.map LineItem.ix) := by
  induction candidates generalizing boundaries state prevC inWord unseen closed indent first
    line with
  | nil =>
      rw [WrapLineState.boundaries, List.append_nil]
      exact (List.sublist_append_left _ _).trans along.openPiece.places
  | cons candidate candidates ih =>
      rw [List.forall_mem_cons] at solid
      rw [WrapLineState.boundaries]
      cases newline : candidate.isNewline with
      | true =>
          rw [step_newline newline]
          exact ih (along.newline newline) solid.2
      | false =>
          cases steps : state.step widthForChar wrapWidth candidate with
          | mk found next =>
              cases found with
              | none => exact ih (along.next_none newline solid.1 steps).2 solid.2
              | some boundary =>
                  rcases (along.next_some newline solid.1 steps).2 with
                    ⟨front, ended, back, _, goesOn⟩
                  dsimp only
                  rw [List.append_cons]
                  exact ih goesOn solid.2

omit [IsStrictOrderedRing K] in
/-- The line is not broken at its first item. -/
theorem exists_start (wrapWidth : K)
    (solid : ∀ other ∈ candidate :: candidates, other.Solid widthForChar) :
    ∃ next prevC inWord first,
      WrapLineState.new.step widthForChar wrapWidth candidate = (none, next) ∧
      lineItems 0 '\x00' false false (candidate :: candidates) =
        first :: lineItems next.index prevC next.firstNonWhitespaceIx.isSome inWord candidates ∧
      first.candidate = candidate ∧ first.opportunity = false ∧
      Along widthForChar (lineItems 0 '\x00' false false (candidate :: candidates)) [] next prevC
        inWord false [] 0 first [] candidates := by
  have increasing := lineItems_increasing (fun other member => (solid other member).2) 0 '\x00'
    false false
  have starts : ∀ {next : WrapLineState K} {prevC : Char} {inWord : Bool} {first : LineItem K},
      lineItems 0 '\x00' false false (candidate :: candidates) =
        first :: lineItems next.index prevC next.firstNonWhitespaceIx.isSome inWord candidates →
      first.ix = 0 → next.lastWrapIx = 0 → next.lastCandidateIx = 0 →
      next.width = first.width widthForChar → (inWord = true → prevC ≠ ' ') →
      Along widthForChar (lineItems 0 '\x00' false false (candidate :: candidates)) [] next prevC
        inWord false [] 0 first [] candidates := by
    intro next prevC inWord first split atZero lastWrapIx noCandidate width word
    have total : next.width = LinePiece.width widthForChar 0 [first] := by
      rw [width, LinePiece.width, List.map_singleton, List.sum_singleton, Nat.cast_zero, mul_zero,
        zero_add]
    rw [split] at increasing ⊢
    refine ⟨⟨rfl, List.Sublist.refl _, increasing⟩,
      ⟨lastWrapIx.trans atZero.symm, total, fun isCandidate => absurd noCandidate isCandidate,
        nofun, fun _ => List.forall_mem_nil _⟩,
      ⟨fun _ _ => List.forall_mem_nil _, fun _ _ => noCandidate⟩, word, List.forall_mem_nil _,
      List.forall_mem_nil _⟩
  cases newline : candidate.isNewline with
  | true =>
      have split := lineItems_newline newline candidates 0 '\x00' false false
      refine ⟨_, _, _, _, step_newline newline, split, rfl, rfl, ?_⟩
      apply starts split rfl rfl rfl _ Bool.noConfusion
      rw [LineItem.width_newline newline]
      rfl
  | false =>
      have split := lineItems_visible newline candidates 0 '\x00' false false
      have steps : ∃ next : WrapLineState K,
          WrapLineState.new.step widthForChar wrapWidth candidate = (none, next) ∧
          next.lastWrapIx = 0 ∧ next.lastCandidateIx = 0 ∧
          next.width = candidate.itemWidth widthForChar := by
        have isCandidate := WrapLineState.new.put_candidate widthForChar candidate
        have noBreak : candidate.mayBreak (WrapLineState.new : WrapLineState K).prevC
            (WrapLineState.new : WrapLineState K).firstNonWhitespaceIx.isSome = false :=
          candidate.mayBreak_indent _
        rw [if_neg (Bool.eq_false_iff.mp noBreak)] at isCandidate
        rw [WrapLineState.step, if_neg (Bool.eq_false_iff.mp newline)]
        dsimp only
        rw [if_neg fun both => Nat.not_lt_zero _ both.2]
        refine ⟨_, rfl, WrapLineState.new.put_lastWrapIx widthForChar candidate, isCandidate.1, ?_⟩
        exact (WrapLineState.new.put_width widthForChar candidate).trans (zero_add _)
      rcases steps with ⟨next, steps, lastWrapIx, noCandidate, width⟩
      have facts := step_visible newline steps
      rw [show (0 : Nat) + candidate.lenUtf8 = next.index from facts.1.symm,
        show (false || !candidate.isSpace) = next.firstNonWhitespaceIx.isSome from facts.2.symm]
        at split
      refine ⟨next, _, _, _, steps, split, rfl, candidate.mayBreak_indent _, ?_⟩
      apply starts split rfl lastWrapIx noCandidate _ word_ne_space
      rw [width, LineItem.width_visible newline]

end Along

/-- Places of items other than the first, in order, are as expected if the pieces are. -/
theorem wellBroken_iff_of_places {widthForChar : Char → K} {wrapWidth : K}
    {candidates : List (WrapBoundaryCandidate K)} {boundaries : List Boundary}
    (solid : ∀ candidate ∈ candidates, candidate.Solid widthForChar)
    (places : (boundaries.map Boundary.ix).Sublist
      ((lineItems 0 '\x00' false false candidates).tail.map LineItem.ix)) :
    WellBroken widthForChar wrapWidth candidates boundaries ↔
      ∀ piece ∈ linePieces 0 (lineItems 0 '\x00' false false candidates) boundaries,
        piece.next.isSome → piece.Fits widthForChar wrapWidth ∧ piece.KeepsWords := by
  have positive := fun candidate member => (solid candidate member).2
  have increasing := lineItems_increasing positive 0 '\x00' false false
  have bounds := lineItems_bounds positive 0 '\x00' false false
  have places_ : ∀ boundary ∈ boundaries,
      ∃ item ∈ (lineItems 0 '\x00' false false candidates).tail, item.ix = boundary.ix :=
    fun boundary member => List.mem_map.mp (places.subset (List.mem_map_of_mem member))
  constructor
  · exact WellBroken.pieces
  · intro pieces
    refine ⟨?_, ?_, ?_, pieces⟩
    · have tail := increasing.sublist (List.tail_sublist _)
      exact List.pairwise_map.mp ((List.pairwise_map.mpr tail).sublist places)
    · intro boundary member
      rcases places_ boundary member with ⟨item, among, same⟩
      exact ⟨item, List.mem_of_mem_tail among, same⟩
    · intro boundary member
      rcases places_ boundary member with ⟨item, among, same⟩
      cases split : lineItems 0 '\x00' false false candidates with
      | nil =>
          rw [split] at among
          cases among
      | cons first rest =>
          have bound := bounds item (List.mem_of_mem_tail among)
          rw [split] at among increasing
          have behind := (List.pairwise_cons.mp increasing).1 item among
          omega

theorem wellBroken_iff [IsStrictOrderedRing K] {widthForChar : Char → K}
    {candidates : List (WrapBoundaryCandidate K)}
    (solid : ∀ candidate ∈ candidates, candidate.Solid widthForChar) (wrapWidth : K) :
    WellBroken widthForChar wrapWidth candidates
        (WrapLineState.new.boundaries widthForChar wrapWidth candidates) ↔
      WrapLineState.new.Settles widthForChar wrapWidth
        (lineItems 0 '\x00' false false candidates) false := by
  cases candidates with
  | nil =>
      have places : (([] : List Boundary).map Boundary.ix).Sublist
          ((lineItems 0 '\x00' false false []).tail.map (LineItem.ix : LineItem K → Nat)) :=
        List.Sublist.refl _
      rw [WrapLineState.boundaries, wellBroken_iff_of_places solid places]
      refine iff_of_true ?_ trivial
      intro piece member isSome
      rw [List.mem_singleton.mp member] at isSome
      cases isSome
  | cons candidate candidates =>
      rcases Along.exists_start wrapWidth solid with
        ⟨next, prevC, inWord, first, steps, split, isFirst, noOpportunity, along⟩
      have solidRest := (List.forall_mem_cons.mp solid).2
      have boundaries : WrapLineState.new.boundaries widthForChar wrapWidth
          (candidate :: candidates) = next.boundaries widthForChar wrapWidth candidates := by
        rw [WrapLineState.boundaries, steps]
      have places := along.places wrapWidth solidRest
      rw [List.nil_append, ← boundaries] at places
      rw [wellBroken_iff_of_places solid places, boundaries]
      have pieces := along.pieces_iff wrapWidth solidRest (List.forall_mem_nil _)
        (Or.inr (List.forall_mem_nil _))
      rw [List.nil_append] at pieces
      rw [pieces, split, WrapLineState.Settles, isFirst, steps, noOpportunity]
      exact Iff.rfl

end Along

namespace LineWrapper

variable [Field K] [LinearOrder K] [IsStrictOrderedRing K] {platform : PlatformTextSystem K}
  {font : FontIdWithSize K}

end LineWrapper

end Gpui
