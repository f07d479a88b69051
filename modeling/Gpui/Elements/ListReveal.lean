import Gpui.Elements.ListSettle

/-!
# Revealing an item of a list

An item is revealed by an anchor from which it is in view: at its start if the anchor is not in
front of it, or where its end is above the padding at the bottom of the view.  The latter is not
used if it starts in an item in front of the anchor.
-/

namespace Gpui

open Library ListItemSummary

variable {E F K : Type} [Field K] [LinearOrder K]

namespace ListState

variable {S : ListItems F K}

omit [LinearOrder K] in
def scrollTo (self : ListState S) (scrollTop : ListOffset K) : ListState S :=
  let itemCount := self.itemCount
  { self with
    logicalScrollTop? := some (if itemCount ≤ scrollTop.itemIx then ⟨itemCount, 0⟩ else scrollTop) }

def scrollToRevealItem (self : ListState S) (ix : Nat) : ListState S :=
  let scrollTop := self.logicalScrollTop
  let height := (self.lastLayoutBounds.map fun bounds => bounds.size.height).getD 0
  let padding := self.lastPadding.getD .zero
  let scrollTop :=
    if ix ≤ scrollTop.itemIx then ⟨ix, 0⟩
    else
      let bottom := (S.start (S.seek (atCount (ix + 1)) .right self.items)).height + padding.top
      let goalTop := max 0 (bottom - height + padding.bottom)
      let start := S.start (S.seek (atHeight goalTop) .left self.items)
      if scrollTop.itemIx ≤ start.count then ⟨start.count, goalTop - start.height⟩ else scrollTop
  { self with logicalScrollTop? := some scrollTop }

/-- A list that has been laid out in a view of a height, with the sizes of all its items. -/
structure FullyMeasured (state : ListState S) (height : K) (padding : Edges K)
    (renderItem : Nat → E × Size K) : Prop where
  valid : state.Valid
  sizes : ∀ index item, (S.items state.items)[index]? = some item →
    item.size.map Size.height = some (renderItem index).2.height
  rendered : ∀ index, 0 ≤ (renderItem index).2.height
  bounds : state.lastLayoutBounds.map (fun bounds => bounds.size.height) = some height
  lastPadding : state.lastPadding = some padding
  padding : 0 ≤ padding.top ∧ 0 ≤ padding.bottom
  overdraw : 0 ≤ state.overdraw

section Statements

variable (state : ListState S) (height : K) (padding : Edges K)

/-- The item is drawn, from the anchor on, and all of it is inside the view. -/
def Shows (scrollTop : ListOffset K) (ix : Nat) : Prop :=
  scrollTop.itemIx ≤ ix ∧
    state.scrollTop scrollTop ≤ padding.top + ListItem.top (S.items state.items) ix ∧
    padding.top + ListItem.top (S.items state.items) (ix + 1) ≤ state.scrollTop scrollTop + height

/-- What is expected when an item is revealed: the next layout shows it, from where it would have
started anyway if it would have shown it, and revealing it again changes nothing. -/
structure RevealsItem (renderItem : Nat → E × Size K) (containsFocused : F → Bool) (ix : Nat) :
    Prop where
  shows : state.Shows height padding
    ((state.scrollToRevealItem ix).layoutItems height padding renderItem
      containsFocused).1.scrollTop ix
  stays : state.Shows height padding
      (state.layoutItems height padding renderItem containsFocused).1.scrollTop ix →
    state.scrollTop ((state.scrollToRevealItem ix).layoutItems height padding renderItem
        containsFocused).1.scrollTop =
      state.scrollTop (state.layoutItems height padding renderItem containsFocused).1.scrollTop
  again : (state.scrollToRevealItem ix).scrollToRevealItem ix = state.scrollToRevealItem ix

/-- The last position at which the list fills the view. -/
def scrollEnd : K :=
  state.contentHeight + padding.top + padding.bottom - height

/-- Where a list is laid out whose anchor is at a position. -/
def settledTop (position : K) : K :=
  state.alignment.settle (state.scrollEnd height padding) position

/-- All of the item is inside a view that starts at a position. -/
def InsideView (position : K) (ix : Nat) : Prop :=
  position ≤ padding.top + ListItem.top (S.items state.items) ix ∧
    padding.top + ListItem.top (S.items state.items) (ix + 1) ≤ position + height

/-- The position at which the item ends above the padding, unless it is in front of the list. -/
def goalTop (ix : Nat) : K :=
  max 0 (ListItem.top (S.items state.items) (ix + 1) + padding.top - height + padding.bottom)

/-- An item that is shown is where it would be put: at its start if it is the anchor's, or drawn
since the list is at its end, and where it ends above the padding if that is behind the start of
the anchor's item.  If it is not, the offset in that item leaves the item inside the view. -/
def RevealsInPlace (ix : Nat) : Prop :=
  let anchor := state.logicalScrollTop
  let position := state.settledTop height padding (state.scrollTop anchor)
  if ix ≤ anchor.itemIx then
    ix = anchor.itemIx ∨ state.scrollEnd height padding < state.scrollTop anchor ∧
        state.scrollEnd height padding < ListItem.top (S.items state.items) (ix + 1) →
      state.InsideView height padding position ix →
        state.settledTop height padding (ListItem.top (S.items state.items) ix) = position
  else if anchor.itemIx = 0 ∨
      ListItem.top (S.items state.items) anchor.itemIx < state.goalTop height padding ix then
    state.InsideView height padding position ix →
      state.settledTop height padding (state.goalTop height padding ix) = position
  else state.InsideView height padding position ix

end Statements

end ListState

/-! ## Where a list is laid out -/

namespace ListItem

variable {items : List (ListItem F K)}

omit [LinearOrder K] in
theorem top_succ {index : Nat} {item : ListItem F K} (here : items[index]? = some item) :
    top items (index + 1) = top items index + item.height := by
  rw [top, List.take_add_one, here, List.map_append, List.sum_append]
  exact congrArg (top items index + ·) (add_zero _)

end ListItem

namespace ListState

variable {S : ListItems F K} [IsStrictOrderedRing K] {state : ListState S} {height : K}
  {padding : Edges K} {renderItem : Nat → E × Size K}

omit [LinearOrder K] [IsStrictOrderedRing K] in
/-- The pixels at which an anchor in the list is. -/
theorem scrollTop_eq (state : ListState S) {scrollTop : ListOffset K}
    (bound : scrollTop.itemIx ≤ (S.items state.items).length) :
    state.scrollTop scrollTop =
      ListItem.top (S.items state.items) scrollTop.itemIx + scrollTop.offsetInItem := by
  rw [ListState.scrollTop, start_seek_atCount bound]

variable {ix : Nat}

omit [IsStrictOrderedRing K] in
theorem FullyMeasured.top_succ (list : state.FullyMeasured height padding renderItem)
    (inList : ix < (S.items state.items).length) :
    ListItem.top (S.items state.items) (ix + 1) =
      ListItem.top (S.items state.items) ix + (renderItem ix).2.height := by
  have here := List.getElem?_eq_getElem inList
  have size := list.sizes ix _ here
  rw [ListItem.top_succ here]
  cases isItem : (S.items state.items)[ix] with
  | unmeasured focusHandle =>
      rw [isItem] at size
      cases size
  | measured cached focusHandle =>
      rw [isItem] at size
      exact congrArg _ (Option.some.inj size)

omit [IsStrictOrderedRing K] in
/-- The items start where they are rendered. -/
theorem FullyMeasured.top_eq (list : state.FullyMeasured height padding renderItem)
    (containsFocused : F → Bool) (bound : ix ≤ (S.items state.items).length) :
    ListItem.top (S.items state.items) ix =
      ListLayout.top ⟨height, state.overdraw, renderItem, containsFocused⟩ ix := by
  induction ix with
  | zero => rfl
  | succ ix ih => rw [list.top_succ bound, ListLayout.top_succ, ih (Nat.le_of_succ_le bound)]

omit [IsStrictOrderedRing K] in
theorem FullyMeasured.renderable (list : state.FullyMeasured height padding renderItem)
    (containsFocused : F → Bool) :
    state.Renderable ⟨height, state.overdraw, renderItem, containsFocused⟩ padding := by
  refine ⟨list.valid, ?_, list.rendered, list.padding, list.overdraw⟩
  intro index item here size isSize
  have same := list.sizes index item here
  rw [Option.mem_def.mp isSize] at same
  exact Option.some.inj same

/-- The list is laid out from its anchor, or from the last item from which it fills the view. -/
theorem FullyMeasured.layoutItems (list : state.FullyMeasured height padding renderItem)
    (containsFocused : F → Bool) :
    let anchor := state.logicalScrollTop
    let scrollTop := (state.layoutItems height padding renderItem containsFocused).1.scrollTop
    state.scrollTop scrollTop = state.settledTop height padding (state.scrollTop anchor) ∧
      ∀ ix < (S.items state.items).length, scrollTop.itemIx ≤ ix ↔
        anchor.itemIx ≤ ix ∨ state.scrollEnd height padding < state.scrollTop anchor ∧
          state.scrollEnd height padding < ListItem.top (S.items state.items) (ix + 1) := by
  have bound := list.valid.scrollTop_le
  have isEnd : state.scrollEnd height padding = state.renderedEnd
      ⟨height, state.overdraw, renderItem, containsFocused⟩ padding := by
    rw [scrollEnd, renderedEnd, contentHeight_eq, list.top_eq containsFocused le_rfl]
  have isAnchor : state.scrollTop state.logicalScrollTop = state.anchorTop
      ⟨height, state.overdraw, renderItem, containsFocused⟩ := by
    rw [scrollTop_eq state bound, anchorTop, list.top_eq containsFocused bound]
  rcases (list.renderable containsFocused).layoutItems with ⟨shownTo, _, settled, _⟩
  dsimp only
  generalize (state.layoutItems height padding renderItem containsFocused).1.scrollTop =
    scrollTop at *
  have fromFront : scrollTop.itemIx ≤ state.logicalScrollTop.itemIx :=
    (settled.drawn _).mpr (Or.inl le_rfl)
  have inList := fromFront.trans bound
  constructor
  · rw [scrollTop_eq state inList, list.top_eq containsFocused inList, settled.position, settledTop,
      isEnd, isAnchor]
  · intro ix inItems
    rw [isEnd, isAnchor, list.top_eq containsFocused inItems]
    exact settled.drawn ix

/-! ## Where an item is revealed -/

/-- A height is found in the first item that does not end before it, if there is one. -/
theorem start_seek_atHeight_left {tree : S.Tree} (heights : ListItem.Heights (S.items tree))
    (height : K) :
    ∃ n ≤ (S.items tree).length,
      (S.start (S.seek (atHeight height) .left tree)).count = n ∧
        (S.start (S.seek (atHeight height) .left tree)).height = ListItem.top (S.items tree) n ∧
        ∀ index ≤ (S.items tree).length,
          index ≤ n ↔ index = 0 ∨ ListItem.top (S.items tree) index < height := by
  have around := S.around_seek (seekable_atHeight heights .left height 0)
  generalize isCount : passCount ListItem.summary
    (fun ends => Bias.left.passes (atHeight height ends)) 0 (S.items tree) = n at around
  have bound : n ≤ (S.items tree).length := isCount ▸ passCount_le
  refine ⟨n, bound, ?_, ?_, ?_⟩
  · rw [SummedSequence.start, around.1, sum_count, List.length_take, Nat.min_eq_left bound]
  · rw [SummedSequence.start, around.1, sum_height, ListItem.top]
  · intro index inside
    constructor
    · intro within
      by_cases atStart : index = 0
      · exact Or.inl atStart
      · rw [← isCount] at within
        have passes := passes_of_lt (Nat.pos_of_ne_zero atStart) within
        rw [passes_atHeight, add_height, sum_height, zero_height, zero_add] at passes
        exact Or.inr (passes.resolve_right fun both => Bias.noConfusion both.1)
    · rintro (rfl | before)
      · exact Nat.zero_le n
      · by_contra behind
        have more : n < (S.items tree).length := by omega
        rw [← isCount] at more
        have stops := not_passes_succ more
        rw [isCount, Bool.eq_false_iff, Ne, passes_atHeight, add_height, sum_height, zero_height,
          zero_add, not_or] at stops
        have ordered := heights.top_mono (not_le.mp behind)
        exact stops.1 (lt_of_le_of_lt ordered before)

/-- The anchors that an item is revealed with. -/
inductive RevealedBy (state : ListState S) (height : K) (padding : Edges K) (ix : Nat) :
    ListOffset K → Prop where
  | atStart : ix ≤ state.logicalScrollTop.itemIx → RevealedBy state height padding ix ⟨ix, 0⟩
  | atGoal (n : Nat) : state.logicalScrollTop.itemIx < ix →
      (state.logicalScrollTop.itemIx = 0 ∨
        ListItem.top (S.items state.items) state.logicalScrollTop.itemIx <
          state.goalTop height padding ix) →
      n = (S.start (S.seek (atHeight (state.goalTop height padding ix)) .left state.items)).count →
      n < ix →
      RevealedBy state height padding ix
        ⟨n, state.goalTop height padding ix - ListItem.top (S.items state.items) n⟩
  | kept : state.logicalScrollTop.itemIx < ix →
      ¬ (state.logicalScrollTop.itemIx = 0 ∨
        ListItem.top (S.items state.items) state.logicalScrollTop.itemIx <
          state.goalTop height padding ix) →
      RevealedBy state height padding ix state.logicalScrollTop

theorem FullyMeasured.top_nonneg (list : state.FullyMeasured height padding renderItem)
    (ix : Nat) : 0 ≤ ListItem.top (S.items state.items) ix :=
  list.valid.heights.top_mono (Nat.zero_le ix)

/-- An item that fits between the paddings starts behind the position at which it ends above
the padding. -/
theorem FullyMeasured.goalTop_le (list : state.FullyMeasured height padding renderItem)
    (inList : ix < (S.items state.items).length)
    (fits : (renderItem ix).2.height ≤ height - padding.top - padding.bottom) :
    state.goalTop height padding ix ≤ ListItem.top (S.items state.items) ix := by
  have next := list.top_succ inList
  apply max_le (list.top_nonneg ix)
  linarith

theorem FullyMeasured.scrollToRevealItem_eq
    (list : state.FullyMeasured height padding renderItem)
    (inList : ix < (S.items state.items).length)
    (fits : (renderItem ix).2.height ≤ height - padding.top - padding.bottom) :
    ∃ anchor, state.scrollToRevealItem ix = { state with logicalScrollTop? := some anchor } ∧
      RevealedBy state height padding ix anchor := by
  have goal := list.goalTop_le inList fits
  have isGoal : max 0 (ListItem.top (S.items state.items) (ix + 1) + padding.top - height +
    padding.bottom) = state.goalTop height padding ix := rfl
  rw [scrollToRevealItem, list.bounds, list.lastPadding]
  dsimp only
  rw [Option.getD_some, Option.getD_some, start_seek_atCount inList, isGoal]
  refine ⟨_, rfl, ?_⟩
  by_cases before : ix ≤ state.logicalScrollTop.itemIx
  · rw [if_pos before]
    exact .atStart before
  · rw [if_neg before]
    rcases start_seek_atHeight_left list.valid.heights (state.goalTop height padding ix) with
      ⟨n, bound, count, top, within⟩
    have bounds := within state.logicalScrollTop.itemIx list.valid.scrollTop_le
    rw [count, top]
    by_cases reaches : state.logicalScrollTop.itemIx ≤ n
    · rw [if_pos reaches]
      apply RevealedBy.atGoal n (not_le.mp before) (bounds.1 reaches) count.symm
      by_contra behind
      rcases (within ix inList.le).mp (not_lt.mp behind) with isZero | above
      · omega
      · exact absurd goal (not_le.mpr above)
    · rw [if_neg reaches]
      exact .kept (not_le.mp before) (mt bounds.2 reaches)

omit [IsStrictOrderedRing K] in
theorem RevealedBy.itemIx_le {anchor : ListOffset K}
    (list : state.FullyMeasured height padding renderItem)
    (inList : ix < (S.items state.items).length)
    (revealed : state.RevealedBy height padding ix anchor) :
    anchor.itemIx ≤ (S.items state.items).length := by
  cases revealed with
  | atStart before => exact inList.le
  | atGoal n behind above count less => exact less.le.trans inList.le
  | kept behind notAbove => exact list.valid.scrollTop_le

omit [IsStrictOrderedRing K] in
/-- A list that is scrolled is as measured as before. -/
theorem FullyMeasured.anchored (list : state.FullyMeasured height padding renderItem)
    {anchor : ListOffset K} (bound : anchor.itemIx ≤ (S.items state.items).length) :
    ({ state with logicalScrollTop? := some anchor } : ListState S).FullyMeasured height padding
      renderItem := by
  constructor
  · constructor
    · intro other isOther
      rw [← Option.some.inj isOther]
      exact bound
    · exact list.valid.heights
  · exact list.sizes
  · exact list.rendered
  · exact list.bounds
  · exact list.lastPadding
  · exact list.padding
  · exact list.overdraw

/-- A view is not settled away from an item that is inside it. -/
theorem FullyMeasured.insideView_settledTop
    (list : state.FullyMeasured height padding renderItem)
    (inList : ix < (S.items state.items).length) {position : K} (nonneg : 0 ≤ position)
    (inside : state.InsideView height padding position ix) :
    state.InsideView height padding (state.settledTop height padding position) ix := by
  have ends := list.valid.heights.top_mono (show ix + 1 ≤ (S.items state.items).length from inList)
  have content := contentHeight_eq state
  have bottom := list.padding.2
  apply ListAlignment.settle_inside nonneg inside.1 inside.2
  rw [scrollEnd]
  linarith

/-- What the next layout shows. -/
theorem FullyMeasured.shows_iff (list : state.FullyMeasured height padding renderItem)
    (containsFocused : F → Bool) (inList : ix < (S.items state.items).length) :
    state.Shows height padding
        (state.layoutItems height padding renderItem containsFocused).1.scrollTop ix ↔
      (state.logicalScrollTop.itemIx ≤ ix ∨
          state.scrollEnd height padding < state.scrollTop state.logicalScrollTop ∧
            state.scrollEnd height padding < ListItem.top (S.items state.items) (ix + 1)) ∧
        state.InsideView height padding
          (state.settledTop height padding (state.scrollTop state.logicalScrollTop)) ix := by
  have laidOut := list.layoutItems containsFocused
  dsimp only at laidOut
  rw [Shows, laidOut.1, laidOut.2 ix inList]
  rfl

omit [IsStrictOrderedRing K] in
/-- An item is revealed by the same anchor again. -/
theorem RevealedBy.again {anchor other : ListOffset K}
    (revealed : state.RevealedBy height padding ix anchor)
    (again : ({ state with logicalScrollTop? := some anchor } : ListState S).RevealedBy height
      padding ix other) : other = anchor := by
  cases revealed with
  | atStart before =>
      cases again with
      | atStart _ => rfl
      | atGoal n behind above count less => exact absurd behind (lt_irrefl ix)
      | kept behind notAbove => rfl
  | atGoal n behind above count less =>
      cases again with
      | atStart before => exact absurd less (not_lt.mpr before)
      | atGoal m _ _ same _ =>
          rw [count]
          rw [same]
          rfl
      | kept _ _ => rfl
  | kept behind notAbove =>
      cases again with
      | atStart before => exact absurd behind (not_lt.mpr before)
      | atGoal m _ above _ _ => exact absurd above notAbove
      | kept _ _ => rfl

theorem FullyMeasured.insideView_start (list : state.FullyMeasured height padding renderItem)
    (inList : ix < (S.items state.items).length)
    (fits : (renderItem ix).2.height ≤ height - padding.top - padding.bottom) :
    state.InsideView height padding
      (state.settledTop height padding (ListItem.top (S.items state.items) ix)) ix := by
  have next := list.top_succ inList
  have fromTop := list.padding.1
  have fromBottom := list.padding.2
  apply list.insideView_settledTop inList (list.top_nonneg ix)
  constructor
  · linarith
  · linarith

/-- An item is inside a view that starts between the position at which it ends above the padding
and its own start. -/
theorem FullyMeasured.insideView_goal (list : state.FullyMeasured height padding renderItem)
    (inList : ix < (S.items state.items).length) {position : K}
    (behind : state.goalTop height padding ix ≤ position)
    (before : position ≤ ListItem.top (S.items state.items) ix) :
    state.InsideView height padding (state.settledTop height padding position) ix := by
  have fromTop := list.padding.1
  have fromBottom := list.padding.2
  have nonneg : 0 ≤ state.goalTop height padding ix := le_max_left _ _
  have ends : ListItem.top (S.items state.items) (ix + 1) + padding.top - height +
    padding.bottom ≤ state.goalTop height padding ix := le_max_right _ _
  apply list.insideView_settledTop inList (nonneg.trans behind)
  constructor
  · linarith
  · linarith

omit [IsStrictOrderedRing K] in
theorem RevealedBy.itemIx_le_ix {anchor : ListOffset K}
    (revealed : state.RevealedBy height padding ix anchor) : anchor.itemIx ≤ ix := by
  cases revealed with
  | atStart before => exact le_rfl
  | atGoal n behind above count less => exact less.le
  | kept behind notAbove => exact behind.le

/-- What is expected of an anchor, where the list is laid out from it. -/
theorem revealsItem_iff_settledTop (list : state.FullyMeasured height padding renderItem)
    (inList : ix < (S.items state.items).length)
    (fits : (renderItem ix).2.height ≤ height - padding.top - padding.bottom)
    (containsFocused : F → Bool) {anchor : ListOffset K}
    (isNext : state.scrollToRevealItem ix = { state with logicalScrollTop? := some anchor })
    (revealed : state.RevealedBy height padding ix anchor) :
    state.RevealsItem height padding renderItem containsFocused ix ↔
      state.InsideView height padding
          (state.settledTop height padding (state.scrollTop anchor)) ix ∧
        ((state.logicalScrollTop.itemIx ≤ ix ∨
              state.scrollEnd height padding < state.scrollTop state.logicalScrollTop ∧
                state.scrollEnd height padding < ListItem.top (S.items state.items) (ix + 1)) ∧
            state.InsideView height padding
              (state.settledTop height padding (state.scrollTop state.logicalScrollTop)) ix →
          state.settledTop height padding (state.scrollTop anchor) =
            state.settledTop height padding (state.scrollTop state.logicalScrollTop)) := by
  have next := list.anchored (revealed.itemIx_le list inList)
  have again : ({ state with logicalScrollTop? := some anchor } : ListState S).scrollToRevealItem
      ix = { state with logicalScrollTop? := some anchor } := by
    rcases next.scrollToRevealItem_eq inList fits with ⟨other, isOther, revealedAgain⟩
    rw [isOther, revealed.again revealedAgain]
  have shows := list.shows_iff containsFocused inList
  have showsNext := next.shows_iff containsFocused inList
  have laidOut := (list.layoutItems containsFocused).1
  have laidOutNext := (next.layoutItems containsFocused).1
  constructor
  · rintro ⟨showsItem, stays, _⟩
    rw [isNext] at showsItem stays
    constructor
    · exact (showsNext.mp showsItem).2
    · intro shown
      exact laidOutNext.symm.trans ((stays (shows.mpr shown)).trans laidOut)
  · rintro ⟨inside, stays⟩
    constructor
    · rw [isNext]
      exact showsNext.mpr ⟨Or.inl revealed.itemIx_le_ix, inside⟩
    · rw [isNext]
      intro shown
      exact laidOutNext.trans ((stays (shows.mp shown)).trans laidOut.symm)
    · rw [isNext]
      exact again

/-- An item is revealed as expected exactly when it is shown where it would be put, or not shown
yet and not kept out of view by an offset beyond the anchor's item. -/
theorem revealsItem_iff (list : state.FullyMeasured height padding renderItem)
    (inList : ix < (S.items state.items).length)
    (fits : (renderItem ix).2.height ≤ height - padding.top - padding.bottom)
    (containsFocused : F → Bool) :
    state.RevealsItem height padding renderItem containsFocused ix ↔
      state.RevealsInPlace height padding ix := by
  rcases list.scrollToRevealItem_eq inList fits with ⟨anchor, isNext, revealed⟩
  rw [revealsItem_iff_settledTop list inList fits containsFocused isNext revealed, RevealsInPlace]
  cases revealed with
  | atStart before =>
      have inside := list.insideView_start inList fits
      have position := scrollTop_eq state
        (show (⟨ix, 0⟩ : ListOffset K).itemIx ≤ (S.items state.items).length from inList.le)
      rw [position, if_pos before]
      dsimp only
      rw [add_zero, before.ge_iff_eq]
      constructor
      · rintro ⟨_, stays⟩ drawn inView
        exact stays ⟨drawn, inView⟩
      · intro stays
        exact ⟨inside, fun shown => stays shown.1 shown.2⟩
  | atGoal n behind above count less =>
      have inside := list.insideView_goal inList le_rfl (list.goalTop_le inList fits)
      rw [scrollTop_eq state (less.le.trans inList.le), if_neg (not_le.mpr behind), if_pos above]
      dsimp only
      rw [add_sub_cancel]
      constructor
      · rintro ⟨_, stays⟩ inView
        exact stays ⟨Or.inl behind.le, inView⟩
      · intro stays
        exact ⟨inside, fun shown => stays shown.2⟩
  | kept behind notAbove =>
      rw [if_neg (not_le.mpr behind), if_neg notAbove]
      constructor
      · exact And.left
      · intro inView
        exact ⟨inView, fun _ => rfl⟩

/-- From an anchor that is inside its item, an item is always brought into view. -/
theorem shows_scrollToRevealItem (list : state.FullyMeasured height padding renderItem)
    (inList : ix < (S.items state.items).length)
    (fits : (renderItem ix).2.height ≤ height - padding.top - padding.bottom)
    (containsFocused : F → Bool)
    (inItem : 0 ≤ state.logicalScrollTop.offsetInItem ∧
      state.scrollTop state.logicalScrollTop ≤
        ListItem.top (S.items state.items) (state.logicalScrollTop.itemIx + 1)) :
    state.Shows height padding
      ((state.scrollToRevealItem ix).layoutItems height padding renderItem
        containsFocused).1.scrollTop ix := by
  rcases list.scrollToRevealItem_eq inList fits with ⟨anchor, isNext, revealed⟩
  have bound := revealed.itemIx_le list inList
  have showsNext := (list.anchored bound).shows_iff containsFocused inList
  have position := scrollTop_eq state bound
  rw [isNext]
  refine showsNext.mpr ⟨Or.inl revealed.itemIx_le_ix, ?_⟩
  change state.InsideView height padding
    (state.settledTop height padding (state.scrollTop anchor)) ix
  rw [position]
  cases revealed with
  | atStart before =>
      dsimp only
      rw [add_zero]
      exact list.insideView_start inList fits
  | atGoal n behind above count less =>
      dsimp only
      rw [add_sub_cancel]
      exact list.insideView_goal inList le_rfl (list.goalTop_le inList fits)
  | kept behind notAbove =>
      rw [← position]
      have anchored := scrollTop_eq state list.valid.scrollTop_le
      have goal := not_lt.mp (not_or.mp notAbove).2
      apply list.insideView_goal inList
      · linarith
      · exact inItem.2.trans (list.valid.heights.top_mono behind)

/-- An item with a height that is inside the view is rendered. -/
theorem Shows.rendered {layout : ListLayout E F K} {next : ListState S}
    {response : LayoutItemsResponse E K} {first shownTo last : Nat}
    (shows : state.Shows layout.availableHeight padding response.scrollTop ix)
    (list : state.FullyMeasured layout.availableHeight padding layout.renderItem)
    (laidOut : LaidOut layout padding state next response first shownTo last)
    (overdraw : 0 ≤ layout.overdraw)
    (hasHeight : state.HasHeight ix) : layout.itemLayout ix ∈ response.itemLayouts := by
  have ordered := laidOut.ordered
  have bound := ordered.2.2.1.trans ordered.2.2.2
  have position := scrollTop_eq state (ordered.2.1.trans bound)
  have starts : ListItem.top (S.items state.items) response.scrollTop.itemIx =
    layout.top response.scrollTop.itemIx :=
      list.top_eq layout.containsFocused (ordered.2.1.trans bound)
  have ends : ListItem.top (S.items state.items) shownTo = layout.top shownTo :=
    list.top_eq layout.containsFocused bound
  rcases laidOut.itemLayouts with ⟨trailing, layouts, _⟩
  have inRange : ix < shownTo := by
    by_contra behind
    have below := list.valid.heights.top_mono (not_lt.mp behind)
    rcases laidOut.reaches overdraw (Or.inl list.padding.2) with reaches | atEnd
    · rcases hasHeight with ⟨item, here, height⟩
      have next := ListItem.top_succ here
      have nonneg := list.valid.heights item (List.mem_of_getElem? here)
      rw [layout.shownHeight_shown ordered.2.1] at reaches
      have inside := shows.2.2
      apply height
      linarith
    · have inList := hasHeight.lt_length
      omega
  rw [layouts, List.mem_append]
  exact Or.inl (layout.itemLayout_mem_shown shows.1 inRange)

/-- Items of which the first is higher than the view. -/
def tallFirst : ListState lists :=
  measured .top [100, 20, 10, 100] 60

def renderTallFirst (index : Nat) : Nat × Size ℚ :=
  (index, ⟨50, [100, 20, 10, 100].getD index 0⟩)

example : ((lists.items tallFirst.items)[1]?).bind ListItem.size = some (renderTallFirst 1).2 := by
  decide +kernel

theorem tallFirst_fullyMeasured {anchor : ListOffset ℚ} (bound : anchor.itemIx ≤ 4) :
    ({ tallFirst with logicalScrollTop? := some anchor } : ListState lists).FullyMeasured 60 .zero
      renderTallFirst := by
  have all : ∀ index < 4, ∀ item, (lists.items tallFirst.items)[index]? = some item →
      item.size.map Size.height = some (renderTallFirst index).2.height := by
    decide +kernel
  have heights : ListItem.Heights (lists.items tallFirst.items) := by
    unfold ListItem.Heights
    decide +kernel
  constructor
  · constructor
    · intro other isOther
      rw [← Option.some.inj isOther]
      exact bound
    · exact heights
  · intro index item here
    have inside := (List.getElem?_eq_some_iff.mp here).1
    exact all index inside item here
  · intro index
    rcases lt_or_ge index 4 with inside | beyond
    · have nonneg : ∀ index < 4, 0 ≤ (renderTallFirst index).2.height := by decide +kernel
      exact nonneg index inside
    · rw [renderTallFirst, List.getD_eq_default _ _ beyond]
  · rfl
  · rfl
  · exact ⟨le_rfl, le_rfl⟩
  · exact le_rfl

theorem revealsItem_iff_second :
    let state : ListState lists := { tallFirst with logicalScrollTop? := some ⟨0, 0⟩ }
    state.RevealsItem 60 .zero renderTallFirst (fun _ => false) 1 ↔
      state.RevealsInPlace 60 .zero 1 :=
  revealsItem_iff (tallFirst_fullyMeasured (Nat.zero_le 4)) (by decide) (by decide +kernel)
    (fun _ => false)

/-- Scrolled by 90, the view shows the second item, at 10, and is scrolled back to 60.  With an
offset of 500 in the second item the list is at its end, where the third item is not shown when
it is revealed. -/
theorem not_revealsItem :
    ¬ (tallFirst.scroll ⟨0, 0⟩ 60 ⟨0, -90⟩).1.RevealsItem 60 .zero renderTallFirst
        (fun _ => false) 1 ∧
      ¬ (tallFirst.scrollTo ⟨1, 500⟩).RevealsItem 60 .zero renderTallFirst (fun _ => false) 2 := by
  constructor
  · intro reveals
    have stays := reveals.stays ⟨by decide +kernel, by decide +kernel, by decide +kernel⟩
    exact absurd stays (by decide +kernel)
  · intro reveals
    exact absurd reveals.shows.2.1 (by decide +kernel)

example : (renderTallFirst 2).2.height = 10 := by
  decide +kernel

end ListState

end Gpui
