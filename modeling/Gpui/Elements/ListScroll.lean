import Gpui.Elements.List

/-!
# Scrolling a list

Positions of the view are pixels from the top of the items.  A position is turned into an
anchor by the sum tree, except that a list that is aligned to its bottom has no anchor where it
is scrolled to the maximum.
-/

namespace Gpui

open Library ListItemSummary

variable {F K : Type} [Field K] [LinearOrder K]

/-- What a scroll handler is called with. -/
structure ListScrollEvent where
  visibleRange : Nat × Nat
  count : Nat
  isScrolled : Bool
deriving DecidableEq, Repr

omit [LinearOrder K] in
def Edges.zero : Edges K :=
  ⟨0, 0, 0, 0⟩

omit [LinearOrder K] in
def Bounds.zero : Bounds K :=
  ⟨⟨0, 0⟩, ⟨0, 0⟩⟩

namespace ListState

variable {S : ListItems F K}

/-- The height of all items. -/
def contentHeight (self : ListState S) : K :=
  (S.total self.items).height

/-- The pixels at which an anchor is. -/
def scrollTop (self : ListState S) (logicalScrollTop : ListOffset K) : K :=
  (S.start (S.seek (atCount logicalScrollTop.itemIx) .right self.items)).height +
    logicalScrollTop.offsetInItem

def visibleRange (self : ListState S) (height : K) (scrollTop : ListOffset K) : Nat × Nat :=
  let cursor := S.seek (atCount scrollTop.itemIx) .right self.items
  let startY := (S.start cursor).height + scrollTop.offsetInItem
  let cursor := S.seekForward (atHeight (startY + height)) .left cursor
  (scrollTop.itemIx, (S.start cursor).count + 1)

/-- How far a list can be scrolled in a view. -/
def scrollMax (self : ListState S) (height : K) : K :=
  let padding := self.lastPadding.getD .zero
  max (self.contentHeight + padding.top + padding.bottom - height) 0

/-- The anchor for a position, as `scroll` and `set_offset_from_scrollbar` set it. -/
def anchorAt (self : ListState S) (newScrollTop scrollMax : K) : Option (ListOffset K) :=
  if self.alignment = .bottom ∧ newScrollTop = scrollMax then none
  else
    let start := S.start (S.seek (atHeight newScrollTop) .right self.items)
    some ⟨start.count, newScrollTop - start.height⟩

/-- The state after a scroll event, and what the handler is called with.  The anchor that is
given is that of the last frame. -/
def scroll (self : ListState S) (scrollTop : ListOffset K) (height : K) (delta : Point K) :
    ListState S × Option ListScrollEvent :=
  if self.isReset then (self, none)
  else
    let scrollMax := self.scrollMax height
    let newScrollTop := min (max (self.scrollTop scrollTop - delta.y) 0) scrollMax
    let next := { self with logicalScrollTop? := self.anchorAt newScrollTop scrollMax }
    (next,
      if next.hasScrollHandler then
        some
          { visibleRange := next.visibleRange height scrollTop
            count := (S.total next.items).count
            isScrolled := next.logicalScrollTop?.isSome }
      else none)

/-! ## The scrollbar -/

def scrollbarDragStarted (self : ListState S) : ListState S :=
  { self with scrollbarDragStartHeight := some self.contentHeight }

def scrollbarDragEnded (self : ListState S) : ListState S :=
  { self with scrollbarDragStartHeight := none }

/-- How much the height has changed since the scrollbar is dragged. -/
def dragOffset (self : ListState S) : K :=
  self.contentHeight - self.scrollbarDragStartHeight.getD self.contentHeight

def setOffsetFromScrollbar (self : ListState S) (point : Point K) : ListState S :=
  match self.lastLayoutBounds with
  | none => self
  | some bounds =>
      let scrollMax := self.scrollMax bounds.size.height
      let newScrollTop := min (max |point.y - self.dragOffset| 0) scrollMax
      { self with logicalScrollTop? := self.anchorAt newScrollTop scrollMax }

def maxOffsetForScrollbar (self : ListState S) : Size K :=
  let bounds := self.lastLayoutBounds.getD .zero
  let height := self.scrollbarDragStartHeight.getD self.contentHeight
  ⟨0, max 0 (height - bounds.size.height)⟩

def scrollPxOffsetForScrollbar (self : ListState S) : Point K :=
  ⟨0, -(self.scrollTop self.logicalScrollTop - self.dragOffset)⟩

end ListState

/-! ## Seeking a height -/

namespace ListItem

/-- The items have heights, none of them negative. -/
def Heights (items : List (ListItem F K)) : Prop :=
  ∀ item ∈ items, 0 ≤ item.height

omit [LinearOrder K] in
/-- Where an item starts. -/
def top (items : List (ListItem F K)) (index : Nat) : K :=
  ((items.take index).map height).sum

end ListItem

section Heights

variable [IsStrictOrderedRing K] {items : List (ListItem F K)}

theorem ListItem.Heights.top_mono (heights : ListItem.Heights items) {n m : Nat}
    (ordered : n ≤ m) : ListItem.top items n ≤ ListItem.top items m := by
  have split := List.take_append_drop n (items.take m)
  rw [List.take_take, Nat.min_eq_left ordered] at split
  rw [ListItem.top, ListItem.top, ← split, List.map_append, List.sum_append]
  apply le_add_of_nonneg_right
  apply List.sum_nonneg
  rw [List.forall_mem_map]
  intro item member
  exact heights item (List.mem_of_mem_take (List.mem_of_mem_drop member))

omit [Field K] [IsStrictOrderedRing K] in
/-- A target passes what ends before it and, to the right, what ends at it. -/
theorem passes_atHeight {bias : Bias} {height : K} {ends : ListItemSummary K} :
    bias.passes (atHeight height ends) = true ↔
      ends.height < height ∨ bias = .right ∧ ends.height = height := by
  rw [atHeight]
  rcases lt_trichotomy height ends.height with less | same | greater
  · rw [compare_lt_iff_lt.mpr less]
    constructor
    · intro passes
      cases bias
      all_goals cases passes
    · rintro (behind | ⟨_, at_⟩)
      · exact absurd behind less.asymm
      · exact absurd at_ less.ne'
  · rw [compare_eq_iff_eq.mpr same]
    cases bias with
    | left =>
        constructor
        · intro passes
          cases passes
        · rintro (behind | ⟨isRight, _⟩)
          · exact absurd same behind.ne'
          · cases isRight
    | right => exact iff_of_true rfl (Or.inr ⟨rfl, same.symm⟩)
  · rw [compare_gt_iff_gt.mpr greater]
    cases bias
    all_goals exact iff_of_true rfl (Or.inl greater)

/-- Heights are met in order. -/
theorem seekable_atHeight (heights : ListItem.Heights items) (bias : Bias) (height : K)
    (start : ListItemSummary K) :
    Seekable ListItem.summary (fun ends => bias.passes (atHeight height ends)) start items := by
  intro n m _ ordered _ passes
  have less := heights.top_mono ordered
  rw [passes_atHeight, add_height, sum_height] at passes ⊢
  rw [ListItem.top, ListItem.top] at less
  rcases passes with behind | ⟨isRight, at_⟩
  · left
    linarith
  · rcases less.lt_or_eq with before | same
    · left
      linarith
    · right
      rw [same]
      exact ⟨isRight, at_⟩

variable {S : ListItems F K}

namespace ListState

omit [LinearOrder K] [IsStrictOrderedRing K] in
theorem contentHeight_eq (self : ListState S) :
    self.contentHeight = ListItem.top (S.items self.items) (S.items self.items).length := by
  rw [contentHeight, SummedSequence.total, sum_height, ListItem.top, List.take_length]

omit [LinearOrder K] [IsStrictOrderedRing K] in
/-- An index is where its item starts. -/
theorem start_seek_atCount {tree : S.Tree} {count : Nat} (bound : count ≤ (S.items tree).length) :
    (S.start (S.seek (atCount count) .right tree)).height = ListItem.top (S.items tree) count := by
  rw [SummedSequence.start, (around_seek_atCount tree bound).1, sum_height, ListItem.top]

/-- The start of the items that are found for a height. -/
theorem start_seek_atHeight {tree : S.Tree} (heights : ListItem.Heights (S.items tree))
    (bias : Bias) (height : K) :
    ∃ n ≤ (S.items tree).length,
      (S.start (S.seek (atHeight height) bias tree)).count = n ∧
        (S.start (S.seek (atHeight height) bias tree)).height =
          ListItem.top (S.items tree) n := by
  have around := S.around_seek (seekable_atHeight heights bias height 0)
  refine ⟨passCount ListItem.summary (fun ends => bias.passes (atHeight height ends)) 0
    (S.items tree), passCount_le, ?_, ?_⟩
  · rw [SummedSequence.start, around.1, sum_count, List.length_take,
      Nat.min_eq_left passCount_le]
  · rw [SummedSequence.start, around.1, sum_height, ListItem.top]

/-- An anchor is at the position it was found for. -/
theorem scrollTop_anchorAt (self : ListState S)
    (heights : ListItem.Heights (S.items self.items)) {newScrollTop scrollMax : K}
    {anchor : ListOffset K} (isAnchor : self.anchorAt newScrollTop scrollMax = some anchor) :
    self.scrollTop anchor = newScrollTop := by
  rw [anchorAt] at isAnchor
  split_ifs at isAnchor
  rcases start_seek_atHeight heights .right newScrollTop with ⟨n, bound, count, height⟩
  rw [← Option.some.inj isAnchor, scrollTop]
  dsimp only
  rw [count, height, start_seek_atCount bound, add_sub_cancel]

/-! ## The states of a list -/

/-- The anchor is in the list, and no item has a negative height. -/
structure Valid (state : ListState S) : Prop where
  anchored : ∀ anchor, state.logicalScrollTop? = some anchor →
    anchor.itemIx ≤ (S.items state.items).length
  heights : ListItem.Heights (S.items state.items)

variable {state : ListState S}

omit [IsStrictOrderedRing K] in
theorem Valid.scrollTop_le (valid : state.Valid) :
    state.logicalScrollTop.itemIx ≤ (S.items state.items).length := by
  rw [logicalScrollTop]
  cases isAnchor : state.logicalScrollTop? with
  | some anchor => exact valid.anchored anchor isAnchor
  | none =>
      cases state.alignment with
      | top => exact Nat.zero_le _
      | bottom =>
          rw [SummedSequence.total, sum_count]
          exact le_rfl

omit [IsStrictOrderedRing K] in
/-- Items that are spliced in have no height. -/
theorem Valid.spliceFocusable (valid : state.Valid) {start stop : Nat} (ordered : start ≤ stop)
    (bound : stop ≤ (S.items state.items).length) (focusHandles : List (Option F)) :
    (state.spliceFocusable start stop focusHandles).Valid := by
  have items := items_spliceFocusable ordered bound focusHandles
  constructor
  · intro anchor isAnchor
    rw [items, List.length_append, List.length_append, List.length_take, List.length_map,
      List.length_drop]
    rw [ListState.spliceFocusable, Option.map_eq_some_iff] at isAnchor
    rcases isAnchor with ⟨old, isOld, rfl⟩
    have inside := valid.anchored old isOld
    split_ifs
    · dsimp only
      omega
    · dsimp only
      omega
    · omega
  · intro item member
    rw [items, List.mem_append, List.mem_append] at member
    rcases member with (before | new) | after
    · exact valid.heights item (List.mem_of_mem_take before)
    · rcases List.mem_map.mp new with ⟨focusHandle, _, rfl⟩
      exact le_rfl
    · exact valid.heights item (List.mem_of_mem_drop after)

omit [IsStrictOrderedRing K] in
theorem new_valid (itemCount : Nat) (alignment : ListAlignment) (overdraw : K) :
    (ListState.new S itemCount alignment overdraw).Valid := by
  apply Valid.spliceFocusable
  · constructor
    · intro anchor isAnchor
      cases isAnchor
    · intro item member
      rw [S.items_fromIter] at member
      cases member
  · exact le_rfl
  · exact Nat.zero_le _

/-! ## The round trip of the scrollbar -/

/-- When the scrollbar gets the offset that it has set: the position that is asked for is one
that the list can be scrolled to.  A list that is aligned to its bottom has no anchor at the
maximum, which is taken for the end of the items. -/
def KeepsOffset (self : ListState S) (height y : K) : Prop :=
  let position := self.dragOffset - y
  match self.alignment with
  | .top => 0 ≤ position ∧ position ≤ self.scrollMax height
  | .bottom => position = self.contentHeight ∨ 0 ≤ position ∧ position < self.scrollMax height

/-- What is read back after an offset has been set. -/
theorem scrollPxOffset_setOffset (state : ListState S) {bounds : Bounds K}
    (laidOut : state.lastLayoutBounds = some bounds)
    (heights : ListItem.Heights (S.items state.items)) (point : Point K) :
    let position := min |point.y - state.dragOffset| (state.scrollMax bounds.size.height)
    (state.setOffsetFromScrollbar point).scrollPxOffsetForScrollbar.y =
      state.dragOffset -
        if state.alignment = .bottom ∧ position = state.scrollMax bounds.size.height then
          state.contentHeight
        else position := by
  dsimp only
  rw [scrollPxOffsetForScrollbar, setOffsetFromScrollbar, laidOut]
  dsimp only
  rw [neg_sub, max_eq_left (abs_nonneg _)]
  generalize isPosition : min |point.y - state.dragOffset| (state.scrollMax bounds.size.height) =
    position
  congr 1
  cases found : state.anchorAt position (state.scrollMax bounds.size.height) with
  | none =>
      have atEnd : state.alignment = .bottom ∧ position = state.scrollMax bounds.size.height := by
        rw [anchorAt] at found
        split_ifs at found with atEnd
        exact atEnd
      rw [if_pos atEnd, logicalScrollTop, atEnd.1, SummedSequence.total, sum_count]
      exact (add_zero _).trans
        ((start_seek_atCount le_rfl).trans (contentHeight_eq state).symm)
  | some anchor =>
      have between : ¬ (state.alignment = .bottom ∧
          position = state.scrollMax bounds.size.height) := by
        intro atEnd
        rw [anchorAt, if_pos atEnd] at found
        cases found
      rw [if_neg between]
      exact scrollTop_anchorAt state heights found

theorem setOffsetFromScrollbar_roundTrip_iff (state : ListState S) {bounds : Bounds K}
    (laidOut : state.lastLayoutBounds = some bounds)
    (heights : ListItem.Heights (S.items state.items)) (point : Point K)
    (above : -state.maxOffsetForScrollbar.height ≤ point.y) (below : point.y ≤ 0) :
    let next := state.setOffsetFromScrollbar point
    (next.scrollPxOffsetForScrollbar.y = point.y ∧
        -next.maxOffsetForScrollbar.height ≤ next.scrollPxOffsetForScrollbar.y ∧
        next.scrollPxOffsetForScrollbar.y ≤ 0) ↔
      state.KeepsOffset bounds.size.height point.y := by
  dsimp only
  have sameMax : (state.setOffsetFromScrollbar point).maxOffsetForScrollbar =
      state.maxOffsetForScrollbar := by
    rw [setOffsetFromScrollbar]
    split
    all_goals rfl
  have onlyTrip : ∀ y : K, (y = point.y ∧ -state.maxOffsetForScrollbar.height ≤ y ∧ y ≤ 0) ↔
      y = point.y := by
    intro y
    constructor
    · exact And.left
    · rintro rfl
      exact ⟨rfl, above, below⟩
  have maxNonneg : 0 ≤ state.scrollMax bounds.size.height := le_max_right _ _
  have contentNonneg : 0 ≤ state.contentHeight := by
    rw [contentHeight_eq]
    exact heights.top_mono (Nat.zero_le _)
  rw [sameMax, onlyTrip, scrollPxOffset_setOffset state laidOut heights point, KeepsOffset,
    abs_sub_comm]
  generalize isPosition : state.dragOffset - point.y = position
  have read : ∀ offset : K, state.dragOffset - offset = point.y ↔ offset = position := by
    intro offset
    constructor
    · intro same
      linarith
    · intro same
      linarith
  rw [read]
  have kept : min |position| (state.scrollMax bounds.size.height) = position ↔
      0 ≤ position ∧ position ≤ state.scrollMax bounds.size.height := by
    constructor
    · intro same
      have nonneg : 0 ≤ position := by
        rw [← same]
        exact le_min (abs_nonneg _) maxNonneg
      exact ⟨nonneg, same ▸ min_le_right _ _⟩
    · rintro ⟨nonneg, within⟩
      rw [abs_of_nonneg nonneg, min_eq_left within]
  cases alignment : state.alignment with
  | top =>
      rw [if_neg fun atEnd => nomatch atEnd.1]
      exact kept
  | bottom =>
      dsimp only
      by_cases atEnd : min |position| (state.scrollMax bounds.size.height) =
          state.scrollMax bounds.size.height
      · rw [if_pos ⟨rfl, atEnd⟩]
        constructor
        · exact fun same => Or.inl same.symm
        · rintro (same | ⟨nonneg, less⟩)
          · exact same.symm
          · rw [abs_of_nonneg nonneg, min_eq_left less.le] at atEnd
            exact absurd atEnd less.ne
      · rw [if_neg fun both => atEnd both.2, kept]
        have notMax : position ≠ state.scrollMax bounds.size.height := by
          rintro rfl
          exact atEnd (min_eq_right (le_abs_self _))
        constructor
        · rintro ⟨nonneg, within⟩
          exact Or.inr ⟨nonneg, within.lt_of_ne notMax⟩
        · rintro (same | ⟨nonneg, less⟩)
          · have nonneg : 0 ≤ position := same ▸ contentNonneg
            refine ⟨nonneg, ?_⟩
            by_contra beyond
            apply atEnd
            rw [abs_of_nonneg nonneg, min_eq_right (not_le.mp beyond).le]
          · exact ⟨nonneg, less.le⟩

/-- Items kept in lists, without focus handles. -/
abbrev lists : ListItems Unit ℚ :=
  .ofLists ListItem.summary

/-- A list of measured items, in a view without padding. -/
def measured (alignment : ListAlignment) (heights : List ℚ) (height : ℚ) : ListState lists :=
  { new lists 0 alignment 0 with
    items := heights.map fun height => .measured ⟨50, height⟩ none
    lastLayoutBounds := some ⟨⟨0, 0⟩, ⟨50, height⟩⟩
    lastPadding := some .zero }

example : (measured .top [10, 20, 30] 25).maxOffsetForScrollbar.height = 35 := by
  decide +kernel

theorem setOffsetFromScrollbar_roundTrip_iff_three :
    let state := measured .top [10, 20, 30] 25
    let next := state.setOffsetFromScrollbar ⟨0, -15⟩
    (next.scrollPxOffsetForScrollbar.y = -15 ∧
        -next.maxOffsetForScrollbar.height ≤ next.scrollPxOffsetForScrollbar.y ∧
        next.scrollPxOffsetForScrollbar.y ≤ 0) ↔
      state.KeepsOffset 25 (-15) :=
  setOffsetFromScrollbar_roundTrip_iff (measured .top [10, 20, 30] 25) rfl
    (by unfold ListItem.Heights; decide +kernel) ⟨0, -15⟩ (by decide +kernel) (by decide +kernel)

/-- Scrolled to the maximum of 35, the list reports that it is scrolled by all of its height. -/
theorem not_setOffsetFromScrollbar_roundTrip :
    let state := measured .bottom [10, 20, 30] 25
    let next := state.setOffsetFromScrollbar ⟨0, -35⟩
    state.maxOffsetForScrollbar.height = 35 ∧ next.maxOffsetForScrollbar.height = 35 ∧
      next.scrollPxOffsetForScrollbar.y = -60 := by
  decide +kernel

/-! ## Visible ranges -/

/-- Where the view starts.  Without an anchor a list that is aligned to its bottom ends with the
view, and its padding. -/
def viewTop (self : ListState S) (height : K) : K :=
  let padding := self.lastPadding.getD .zero
  match self.logicalScrollTop? with
  | some anchor => self.scrollTop anchor
  | none =>
      match self.alignment with
      | .top => 0
      | .bottom => self.contentHeight + padding.top + padding.bottom - height

/-- An item is in a view that starts at a position: items start behind the padding. -/
def InView (self : ListState S) (viewTop height : K) (index : Nat) : Prop :=
  let padding := self.lastPadding.getD .zero
  viewTop < padding.top + ListItem.top (S.items self.items) (index + 1) ∧
    padding.top + ListItem.top (S.items self.items) index < viewTop + height

instance (self : ListState S) (viewTop height : K) (index : Nat) :
    Decidable (self.InView viewTop height index) :=
  inferInstanceAs (Decidable (_ ∧ _))

/-- An item that has a height. -/
def HasHeight (self : ListState S) (index : Nat) : Prop :=
  ∃ item, (S.items self.items)[index]? = some item ∧ item.height ≠ 0

/-- The range is within the list, and has the items that are in view. -/
structure ExactRange (state : ListState S) (height : K) (range : Nat × Nat) : Prop where
  inBounds : ∀ index, range.1 ≤ index → index < range.2 → index < (S.items state.items).length
  visible : ∀ index, state.HasHeight index →
    (range.1 ≤ index ∧ index < range.2 ↔ state.InView (state.viewTop height) height index)

/-- Where the view starts after a scroll event. -/
def scrolledTo (self : ListState S) (scrollTop : ListOffset K) (height : K) (delta : Point K) :
    K :=
  let padding := self.lastPadding.getD .zero
  let newScrollTop := min (max (self.scrollTop scrollTop - delta.y) 0) (self.scrollMax height)
  if self.alignment = .bottom ∧ newScrollTop = self.scrollMax height then
    self.contentHeight + padding.top + padding.bottom - height
  else newScrollTop

/-- No item leaves or enters the view with the event; before it, the view is taken for the items
from the anchor on that start above its height, and an item is found where that ends. -/
structure KeepsView (state : ListState S) (scrollTop : ListOffset K) (height : K)
    (delta : Point K) : Prop where
  found : (S.items state.items).length < scrollTop.itemIx ∨
    ∃ index < (S.items state.items).length, scrollTop.itemIx ≤ index ∧
      state.scrollTop scrollTop + height ≤ ListItem.top (S.items state.items) (index + 1)
  leaves : ∀ index, state.HasHeight index → scrollTop.itemIx ≤ index →
    index = scrollTop.itemIx ∨
      ListItem.top (S.items state.items) index < state.scrollTop scrollTop + height →
    state.InView (state.scrolledTo scrollTop height delta) height index
  enters : ∀ index, state.HasHeight index →
    index < scrollTop.itemIx ∨ index ≠ scrollTop.itemIx ∧
      state.scrollTop scrollTop + height ≤ ListItem.top (S.items state.items) index →
    ¬ state.InView (state.scrolledTo scrollTop height delta) height index

omit [LinearOrder K] [IsStrictOrderedRing K] in
theorem HasHeight.lt_length {self : ListState S} {index : Nat} (hasHeight : self.HasHeight index) :
    index < (S.items self.items).length := by
  rcases hasHeight with ⟨item, found, _⟩
  exact (List.getElem?_eq_some_iff.mp found).1

/-- The end of the range is behind the first item, from the anchor on, that does not end above
the height, or behind all. -/
theorem visibleRange_eq (self : ListState S) (heights : ListItem.Heights (S.items self.items))
    (height : K) (scrollTop : ListOffset K) :
    let items := S.items self.items
    let bottom := self.scrollTop scrollTop + height
    ∃ last, self.visibleRange height scrollTop = (scrollTop.itemIx, last + 1) ∧
      last ≤ items.length ∧
      (scrollTop.itemIx ≤ items.length → scrollTop.itemIx ≤ last ∧
        (∀ index, scrollTop.itemIx < index → index ≤ last → ListItem.top items index < bottom) ∧
        (last < items.length → bottom ≤ ListItem.top items (last + 1))) := by
  dsimp only
  have atAnchor := S.around_seek (seekable_atCount scrollTop.itemIx 0 (S.items self.items))
  have isCursor : ∃ cursor, S.seek (atCount scrollTop.itemIx) .right self.items = cursor :=
    ⟨_, rfl⟩
  rcases isCursor with ⟨cursor, isCursor⟩
  generalize isFirst : passCount ListItem.summary
    (fun ends => Bias.right.passes (atCount scrollTop.itemIx ends)) 0 (S.items self.items) =
      first at atAnchor
  have firstBound : first ≤ (S.items self.items).length := isFirst ▸ passCount_le
  rw [isCursor] at atAnchor
  have start : ((S.passed cursor).map ListItem.summary).sum.height =
      ListItem.top (S.items self.items) first := by
    rw [atAnchor.1, sum_height, ListItem.top]
  have rest : ListItem.Heights (S.remaining cursor) := by
    rw [atAnchor.2]
    exact fun item member => heights item (List.mem_of_mem_drop member)
  have seekable := seekable_atHeight rest .left (self.scrollTop scrollTop + height)
    ((S.passed cursor).map ListItem.summary).sum
  have forward := S.around_seekForward seekable
  generalize isPassed : passCount ListItem.summary
    (fun ends => Bias.left.passes (atHeight (self.scrollTop scrollTop + height) ends))
      ((S.passed cursor).map ListItem.summary).sum (S.remaining cursor) = passed at forward
  have passedBound : passed ≤ (S.items self.items).length - first := by
    rw [← List.length_drop, ← atAnchor.2, ← isPassed]
    exact passCount_le
  have together : ∀ n, ListItem.top (S.items self.items) first +
      (((S.remaining cursor).take n).map ListItem.height).sum =
        ListItem.top (S.items self.items) (first + n) := by
    intro n
    rw [atAnchor.2, ListItem.top, ListItem.top, List.take_add, List.map_append, List.sum_append]
  refine ⟨first + passed, ?_, by omega, ?_⟩
  · have count : (S.start (S.seekForward (atHeight (self.scrollTop scrollTop + height)) .left
        (S.seek (atCount scrollTop.itemIx) .right self.items))).count = first + passed := by
      rw [isCursor, SummedSequence.start, forward.1, atAnchor.1, atAnchor.2, sum_count,
        List.length_append, List.length_take, List.length_take, List.length_drop,
        Nat.min_eq_left firstBound, Nat.min_eq_left passedBound]
    exact congrArg (fun last => (scrollTop.itemIx, last + 1)) count
  · intro anchorBound
    have isAnchor : first = scrollTop.itemIx := by
      rw [← isFirst, passCount_atCount (Nat.zero_le _) (by simpa using anchorBound)]
      rfl
    refine ⟨by omega, ?_, ?_⟩
    · intro index behind within
      have bound : index - first ≤ passed := by omega
      rw [← isPassed] at bound
      have passes := passes_of_lt (by omega) bound
      rw [passes_atHeight, add_height, start, sum_height, together,
        Nat.add_sub_cancel' (by omega)] at passes
      exact passes.resolve_right fun both => nomatch both.1
    · intro more
      have bound : passed < (S.remaining cursor).length := by
        rw [atAnchor.2, List.length_drop]
        omega
      rw [← isPassed] at bound
      have stops := not_passes_succ bound
      rw [isPassed, Bool.eq_false_iff, Ne, passes_atHeight, add_height, start, sum_height,
        together, not_or] at stops
      exact not_lt.mp stops.1

/-- The range is within the list if an item is found where the height ends. -/
theorem inBounds_iff (self : ListState S) (heights : ListItem.Heights (S.items self.items))
    (height : K) (scrollTop : ListOffset K) :
    (∀ index, (self.visibleRange height scrollTop).1 ≤ index →
        index < (self.visibleRange height scrollTop).2 → index < (S.items self.items).length) ↔
      ((S.items self.items).length < scrollTop.itemIx ∨
        ∃ index < (S.items self.items).length, scrollTop.itemIx ≤ index ∧
          self.scrollTop scrollTop + height ≤ ListItem.top (S.items self.items) (index + 1)) := by
  rcases self.visibleRange_eq heights height scrollTop with ⟨last, range, bound, around⟩
  rw [range]
  constructor
  · intro inBounds
    by_cases behind : (S.items self.items).length < scrollTop.itemIx
    · exact Or.inl behind
    · rcases around (not_lt.mp behind) with ⟨fromAnchor, _, ends⟩
      have more := inBounds last fromAnchor (Nat.lt_succ_self last)
      exact Or.inr ⟨last, more, fromAnchor, ends more⟩
  · rintro (behind | ⟨found, foundBound, fromAnchor, ends⟩) index after before
    · dsimp only at after before
      omega
    · rcases around (by omega) with ⟨_, above, _⟩
      have more : last < (S.items self.items).length := by
        by_contra all
        exact absurd (above (found + 1) (by omega) (by omega)) (not_lt.mpr ends)
      exact Nat.lt_of_lt_of_le before more

/-- The items in the range are the anchor's and those behind it that start above the height. -/
theorem mem_visibleRange_iff (self : ListState S)
    (heights : ListItem.Heights (S.items self.items)) (height : K) (scrollTop : ListOffset K)
    {index : Nat} (bound : index < (S.items self.items).length) :
    (self.visibleRange height scrollTop).1 ≤ index ∧
        index < (self.visibleRange height scrollTop).2 ↔
      scrollTop.itemIx ≤ index ∧ (index = scrollTop.itemIx ∨
        ListItem.top (S.items self.items) index < self.scrollTop scrollTop + height) := by
  rcases self.visibleRange_eq heights height scrollTop with ⟨last, range, _, around⟩
  rw [range]
  apply and_congr_right
  intro fromAnchor
  rcases around (fromAnchor.trans bound.le) with ⟨anchorLast, above, ends⟩
  constructor
  · intro before
    by_cases isAnchor : index = scrollTop.itemIx
    · exact Or.inl isAnchor
    · right
      apply above index _ (Nat.le_of_lt_succ before)
      dsimp only at fromAnchor
      omega
  · rintro (rfl | starts)
    · exact Nat.lt_succ_of_le anchorLast
    · by_contra behind
      have less : last + 1 ≤ index := not_lt.mp behind
      have ordered := heights.top_mono less
      exact absurd starts (not_lt.mpr ((ends (by omega)).trans ordered))

/-- The view of the state after an event. -/
theorem viewTop_scroll (state : ListState S) (heights : ListItem.Heights (S.items state.items))
    (scrollTop : ListOffset K) (height : K) (delta : Point K) :
    ({ state with
        logicalScrollTop? := state.anchorAt
          (min (max (state.scrollTop scrollTop - delta.y) 0) (state.scrollMax height))
          (state.scrollMax height) } : ListState S).viewTop height =
      state.scrolledTo scrollTop height delta := by
  rw [viewTop, scrolledTo]
  generalize min (max (state.scrollTop scrollTop - delta.y) 0) (state.scrollMax height) = position
  cases found : state.anchorAt position (state.scrollMax height) with
  | none =>
      have atEnd : state.alignment = .bottom ∧ position = state.scrollMax height := by
        rw [anchorAt] at found
        split_ifs at found with atEnd
        exact atEnd
      dsimp only
      rw [if_pos atEnd, atEnd.1]
      rfl
  | some anchor =>
      have between : ¬ (state.alignment = .bottom ∧ position = state.scrollMax height) := by
        intro atEnd
        rw [anchorAt, if_pos atEnd] at found
        cases found
      dsimp only
      rw [if_neg between]
      exact scrollTop_anchorAt state heights found

/-- The range that is reported is exact exactly when the event keeps the view. -/
theorem scroll_exactRange_iff (state : ListState S)
    (heights : ListItem.Heights (S.items state.items)) (notReset : state.isReset = false)
    (handled : state.hasScrollHandler = true) (scrollTop : ListOffset K) (height : K)
    (delta : Point K) :
    ∃ next event, state.scroll scrollTop height delta = (next, some event) ∧
      (next.ExactRange height event.visibleRange ↔ state.KeepsView scrollTop height delta) := by
  have viewTop := state.viewTop_scroll heights scrollTop height delta
  generalize isNext : ({ state with
    logicalScrollTop? := state.anchorAt
      (min (max (state.scrollTop scrollTop - delta.y) 0) (state.scrollMax height))
      (state.scrollMax height) } : ListState S) = next at viewTop
  have sameItems : next.items = state.items := by rw [← isNext]
  have sameView : ∀ viewTop index, next.InView viewTop height index ↔
      state.InView viewTop height index := by
    intro viewTop index
    rw [← isNext]
    exact Iff.rfl
  have sameHeight : ∀ index, next.HasHeight index ↔ state.HasHeight index := by
    intro index
    rw [← isNext]
    exact Iff.rfl
  refine ⟨next, ⟨state.visibleRange height scrollTop, state.itemCount,
    next.logicalScrollTop?.isSome⟩, ?_, ?_⟩
  · rw [scroll, if_neg (Bool.eq_false_iff.mp notReset)]
    dsimp only
    rw [if_pos handled, isNext, ← isNext]
    rfl
  · constructor
    · rintro ⟨inBounds, visible⟩
      rw [sameItems] at inBounds
      refine ⟨(state.inBounds_iff heights height scrollTop).mp inBounds, ?_, ?_⟩
      · intro index hasHeight fromAnchor starts
        have reported := (state.mem_visibleRange_iff heights height scrollTop
          hasHeight.lt_length).mpr ⟨fromAnchor, starts⟩
        rw [← viewTop, ← sameView]
        exact (visible index ((sameHeight index).mpr hasHeight)).mp reported
      · intro index hasHeight outside inView
        rw [← viewTop, ← sameView] at inView
        have reported := (visible index ((sameHeight index).mpr hasHeight)).mpr inView
        rcases (state.mem_visibleRange_iff heights height scrollTop hasHeight.lt_length).mp reported
          with ⟨fromAnchor, starts⟩
        rcases outside with before | ⟨notAnchor, behind⟩
        · exact absurd before (not_lt.mpr fromAnchor)
        · exact absurd (starts.resolve_left notAnchor) (not_lt.mpr behind)
    · intro keeps
      constructor
      · rw [sameItems]
        exact (state.inBounds_iff heights height scrollTop).mpr keeps.found
      · intro index hasHeight
        rw [sameHeight] at hasHeight
        rw [viewTop, sameView, state.mem_visibleRange_iff heights height scrollTop
          hasHeight.lt_length]
        constructor
        · rintro ⟨fromAnchor, starts⟩
          exact keeps.leaves index hasHeight fromAnchor starts
        · intro inView
          by_contra outside
          apply keeps.enters index hasHeight _ inView
          by_cases before : index < scrollTop.itemIx
          · exact Or.inl before
          · rw [not_and_or, not_or, not_le] at outside
            have behind := outside.resolve_left before
            exact Or.inr ⟨behind.1, not_lt.mp behind.2⟩

/-- Two items in a view of the height of one. -/
def twoItems : ListState lists :=
  { measured .top [10, 10] 10 with hasScrollHandler := true }

theorem scroll_exactRange_iff_twoItems :
    ∃ next event, twoItems.scroll ⟨0, 0⟩ 10 ⟨0, 0⟩ = (next, some event) ∧
      (next.ExactRange 10 event.visibleRange ↔ twoItems.KeepsView ⟨0, 0⟩ 10 ⟨0, 0⟩) :=
  scroll_exactRange_iff twoItems (by unfold ListItem.Heights; decide +kernel) rfl rfl ⟨0, 0⟩ 10
    ⟨0, 0⟩

/-- The event scrolls from the first item to the second, and the first is reported. -/
theorem not_scroll_exactRange :
    (twoItems.scroll ⟨0, 0⟩ 10 ⟨0, -10⟩).2 = some ⟨(0, 1), 2, true⟩ ∧
      (twoItems.scroll ⟨0, 0⟩ 10 ⟨0, -10⟩).1.logicalScrollTop = ⟨1, 0⟩ ∧
      ¬ (twoItems.scroll ⟨0, 0⟩ 10 ⟨0, -10⟩).1.ExactRange 10 (0, 1) := by
  refine ⟨by decide +kernel, by decide +kernel, ?_⟩
  intro isExact
  have inView := (isExact.visible 0 ⟨.measured ⟨50, 10⟩ none, rfl, by decide +kernel⟩).mp
    ⟨le_rfl, Nat.zero_lt_one⟩
  exact absurd inView (by decide +kernel)

end ListState

end Heights

end Gpui
