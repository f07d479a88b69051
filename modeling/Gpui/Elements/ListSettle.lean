import Gpui.Elements.ListLayout

/-!
# Where a list is laid out

A list whose items have the heights that they are rendered with is laid out from its anchor, or,
if the items behind that do not fill the view, from the position at which they do.
-/

namespace Gpui

open Library ListItemSummary

variable {E F K : Type} [Field K] [LinearOrder K]

/-- Where a list is laid out whose anchor is at a position, given the last one at which the list
fills the view. -/
def ListAlignment.settle (self : ListAlignment) (scrollEnd position : K) : K :=
  if position ≤ scrollEnd then position
  else
    match self with
    | .top => max scrollEnd 0
    | .bottom => scrollEnd

namespace ListAlignment

variable {self : ListAlignment} {scrollEnd position : K}

theorem settle_of_le (fills : position ≤ scrollEnd) : self.settle scrollEnd position = position :=
  if_pos fills

theorem settle_top (behind : scrollEnd < position) :
    top.settle scrollEnd position = max scrollEnd 0 :=
  if_neg (not_le.mpr behind)

theorem settle_bottom (behind : scrollEnd < position) :
    bottom.settle scrollEnd position = scrollEnd :=
  if_neg (not_le.mpr behind)

/-- A view is not settled away from what is inside it. -/
theorem settle_inside [IsStrictOrderedRing K] {low high height : K} (nonneg : 0 ≤ position)
    (fromTop : position ≤ low) (toBottom : high ≤ position + height)
    (inList : high ≤ scrollEnd + height) :
    self.settle scrollEnd position ≤ low ∧ high ≤ self.settle scrollEnd position + height := by
  rcases le_or_gt position scrollEnd with fills | behind
  · rw [settle_of_le fills]
    exact ⟨fromTop, toBottom⟩
  · cases self with
    | top =>
        rw [settle_top behind]
        constructor
        · exact (max_le behind.le nonneg).trans fromTop
        · have less := le_max_left scrollEnd 0
          linarith
    | bottom =>
        rw [settle_bottom behind]
        exact ⟨behind.le.trans fromTop, inList⟩

end ListAlignment

namespace ListLayout

variable {layout : ListLayout E F K} {items measuredItems : List (ListItem F K)}
  {first shownFrom shownTo : Nat}

/-- Where an item starts, with the heights that the items are rendered with. -/
def top (layout : ListLayout E F K) (index : Nat) : K :=
  ((List.range index).map fun index => (layout.renderItem index).2.height).sum

/-- The items that have been measured have the heights that they are rendered with. -/
def SameHeights (layout : ListLayout E F K) (items : List (ListItem F K)) : Prop :=
  ∀ index item, items[index]? = some item →
    ∀ size ∈ item.size, size.height = (layout.renderItem index).2.height

omit [LinearOrder K] in
@[simp]
theorem top_zero (layout : ListLayout E F K) : layout.top 0 = 0 := rfl

omit [LinearOrder K] in
theorem top_succ (layout : ListLayout E F K) (index : Nat) :
    layout.top (index + 1) = layout.top index + (layout.renderItem index).2.height := by
  rw [top, List.range_succ, List.map_append, List.sum_append, List.map_singleton,
    List.sum_singleton]
  rfl

theorem top_mono [IsStrictOrderedRing K]
    (rendered : ∀ index, 0 ≤ (layout.renderItem index).2.height) {n m : Nat} (ordered : n ≤ m) :
    layout.top n ≤ layout.top m := by
  induction m, ordered using Nat.le_induction with
  | base => exact le_rfl
  | succ m ordered ih =>
      rw [top_succ]
      exact ih.trans (le_add_of_nonneg_right (rendered m))

omit [Field K] [LinearOrder K] in
theorem SameHeights.size_height (same : layout.SameHeights items) {index : Nat}
    {item : ListItem F K} (here : items[index]? = some item) :
    (item.size.getD (layout.renderItem index).2).height = (layout.renderItem index).2.height := by
  have size := same index item here
  cases isSize : item.size with
  | none => rfl
  | some cached =>
      rw [isSize] at size
      exact size cached rfl

theorem SameHeights.heights (same : layout.SameHeights items)
    (rendered : ∀ index, 0 ≤ (layout.renderItem index).2.height) : ListItem.Heights items := by
  intro item member
  rcases List.mem_iff_getElem?.mp member with ⟨index, here⟩
  cases item with
  | unmeasured focusHandle => exact le_rfl
  | measured size focusHandle =>
      have height := same index _ here size rfl
      exact (rendered index).trans height.ge

omit [LinearOrder K] in
/-- The items that are measured are as high as they are rendered. -/
theorem SameHeights.measuredHeight (same : layout.SameHeights items)
    (range : layout.MeasuredRange items first shownFrom shownTo measuredItems) :
    layout.top first + measuredHeight measuredItems =
      layout.top (first + measuredItems.length) := by
  have upTo : ∀ n ≤ measuredItems.length,
      layout.top first + ListLayout.measuredHeight (measuredItems.take n) =
        layout.top (first + n) := by
    intro n
    induction n with
    | zero =>
        intro _
        exact add_zero _
    | succ n ih =>
        intro bound
        have inside := range.bound
        have here := List.getElem?_eq_getElem (show first + n < items.length by omega)
        have isMeasured := range.measured _ _ here (by omega) (by omega)
        rw [Nat.add_sub_cancel_left] at isMeasured
        rw [List.take_add_one, isMeasured, Option.toList_some, measuredHeight_append,
          measuredHeight_singleton, ← add_assoc, ih (by omega), ← add_assoc, top_succ,
          measuredItem, ListItem.height]
        congr 1
        split_ifs
        · rfl
        · exact same.size_height here
  have all := upTo measuredItems.length le_rfl
  rw [List.take_length] at all
  exact all

omit [Field K] [LinearOrder K] in
theorem itemLayout_mem_shown (layout : ListLayout E F K) {index : Nat} (behind : shownFrom ≤ index)
    (before : index < shownTo) : layout.itemLayout index ∈ layout.shown shownFrom shownTo := by
  apply List.mem_map_of_mem
  rw [List.mem_range'_1]
  omega

omit [Field K] [LinearOrder K] in
/-- The elements on screen are those before one of them, that one and those behind it. -/
theorem shown_split (layout : ListLayout E F K) {index : Nat} (behind : shownFrom ≤ index)
    (before : index < shownTo) :
    layout.shown shownFrom shownTo = layout.shown shownFrom index ++
      layout.itemLayout index :: layout.shown (index + 1) shownTo := by
  have split := List.range'_append_1 (s := shownFrom) (m := index - shownFrom)
    (n := shownTo - index)
  rw [Nat.add_sub_cancel' behind, show index - shownFrom + (shownTo - index) =
    shownTo - shownFrom by omega, show shownTo - index = shownTo - (index + 1) + 1 by omega,
    List.range'_succ] at split
  rw [shown, shown, shown, ← split, List.map_append, List.map_cons]

omit [LinearOrder K] in
theorem shownHeight_shown (layout : ListLayout E F K) (ordered : shownFrom ≤ shownTo) :
    shownHeight (layout.shown shownFrom shownTo) = layout.top shownTo - layout.top shownFrom := by
  induction shownTo, ordered using Nat.le_induction with
  | base =>
      rw [shown, Nat.sub_self, sub_self]
      rfl
  | succ shownTo ordered ih =>
      rw [shownHeight, shown] at ih
      rw [top_succ, shown, Nat.succ_sub ordered, Nat.succ_eq_add_one, List.range'_concat,
        List.map_append, Nat.one_mul, Nat.add_sub_cancel' ordered, shownHeight, List.map_append,
        List.sum_append, ih, List.map_singleton, List.map_singleton, List.sum_singleton]
      exact sub_add_eq_add_sub _ _ _

/-- The items that are rendered behind the anchor start above the bottom of the view. -/
theorem renderForward_above (same : layout.SameHeights items) {base offsetInItem : K} {index : Nat}
    {rest : List (ListItem F K)} (progress : LayoutProgress E F K)
    (isRest : rest = items.drop index)
    (height : progress.renderedHeight = base + layout.top index) :
    ∀ itemLayout ∈ (layout.renderForward offsetInItem index rest progress).itemLayouts,
      itemLayout ∈ progress.itemLayouts ∨
        base + layout.top itemLayout.index - offsetInItem < layout.availableHeight := by
  induction rest generalizing index progress with
  | nil =>
      intro itemLayout member
      exact Or.inl member
  | cons item rest ih =>
      have here : items[index]? = some item := by
        rw [← List.head?_drop, ← isRest]
        rfl
      have isRestNext : rest = items.drop (index + 1) := by
        rw [← List.tail_drop, ← isRest]
        rfl
      rw [renderForward]
      dsimp only
      by_cases done : progress.renderedHeight - offsetInItem ≥
          layout.availableHeight + layout.overdraw
      · rw [if_pos done]
        intro itemLayout member
        exact Or.inl member
      · rw [if_neg done]
        by_cases visible : progress.renderedHeight - offsetInItem < layout.availableHeight
        · rw [if_pos visible, if_pos visible]
          intro itemLayout member
          have later := ih _ isRestNext (by
            dsimp only
            rw [height, top_succ, add_assoc]) itemLayout member
          rcases later with before | above
          · rcases List.mem_append.mp before with earlier | isHere
            · exact Or.inl earlier
            · right
              rw [List.mem_singleton.mp isHere, ← height]
              exact visible
          · exact Or.inr above
        · rw [if_neg visible, if_neg visible]
          apply ih _ isRestNext
          dsimp only
          rw [height, top_succ, same.size_height here, add_assoc]

variable {S : ListItems F K}

/-- Walking upward ends at the first item found from which the items fill the view. -/
theorem fillUpward_front (layout : ListLayout E F K) {cursor : S.Cursor}
    (progress : LayoutProgress E F K) {base : K}
    (bound : first ≤ items.length) (passed : S.passed cursor = items.take first)
    (height : progress.renderedHeight = base - layout.top first) :
    let result := layout.fillUpward cursor progress
    ∃ front ≤ first, S.passed result.1 = items.take front ∧
      result.2.renderedHeight = base - layout.top front ∧
      (layout.availableHeight ≤ base - layout.top front ∨ front = 0) ∧
      ∀ index, front < index → index ≤ first →
        base - layout.top index < layout.availableHeight := by
  induction first generalizing cursor progress with
  | zero =>
      have before := S.prev_first passed
      dsimp only
      rw [fillUpward]
      by_cases short : progress.renderedHeight < layout.availableHeight
      · rw [if_pos short]
        split
        · rename_i item here
          rw [before.2] at here
          cases here
        · exact ⟨0, le_rfl, before.1, height, Or.inr rfl, fun _ behind within => by omega⟩
      · rw [if_neg short]
        exact ⟨0, le_rfl, passed, height, Or.inr rfl, fun _ behind within => by omega⟩
  | succ first ih =>
      have before := S.prev_take bound passed
      have start := start_take (by omega) before.1
      dsimp only
      rw [fillUpward]
      by_cases short : progress.renderedHeight < layout.availableHeight
      · rw [if_pos short]
        split
        · rename_i item here
          rw [start]
          dsimp only
          have ends := @ih (S.prev cursor)
            { progress with
              renderedHeight := progress.renderedHeight + (layout.renderItem first).2.height
              measuredItems :=
                .measured (layout.renderItem first).2 item.focusHandle :: progress.measuredItems
              itemLayouts := layout.itemLayout first :: progress.itemLayouts
              renderedFocusedItem :=
                progress.renderedFocusedItem || item.containsFocused layout.containsFocused }
            (by omega) before.1 (by
              dsimp only
              rw [height, top_succ]
              ring)
          rcases ends with ⟨front, less, passed, rendered, fills, above⟩
          refine ⟨front, by omega, passed, rendered, fills, ?_⟩
          intro index behind within
          rcases within.lt_or_eq with inside | rfl
          · exact above index behind (by omega)
          · rw [← height]
            exact short
        · rename_i none
          rw [before.2] at none
          cases none
      · rw [if_neg short]
        refine ⟨first + 1, le_rfl, passed, height, Or.inl ?_, fun _ behind within => by omega⟩
        rw [← height]
        exact not_lt.mp short

end ListLayout

namespace ListState

variable {S : ListItems F K}

/-- The last position at which a list fills the view. -/
def renderedEnd (layout : ListLayout E F K) (padding : Edges K) (state : ListState S) : K :=
  layout.top (S.items state.items).length + padding.top + padding.bottom - layout.availableHeight

/-- The position of the anchor. -/
def anchorTop (layout : ListLayout E F K) (state : ListState S) : K :=
  layout.top state.logicalScrollTop.itemIx + state.logicalScrollTop.offsetInItem

/-- A list that can be laid out: its items have the heights that they are rendered with, and no
height is negative. -/
structure Renderable (layout : ListLayout E F K) (padding : Edges K) (state : ListState S) :
    Prop where
  valid : state.Valid
  same : layout.SameHeights (S.items state.items)
  rendered : ∀ index, 0 ≤ (layout.renderItem index).2.height
  padding : 0 ≤ padding.top ∧ 0 ≤ padding.bottom
  overdraw : 0 ≤ layout.overdraw

/-- Which items are drawn when a list is laid out, and where. -/
structure Settled (layout : ListLayout E F K) (padding : Edges K) (state : ListState S)
    (scrollTop : ListOffset K) (shownTo : Nat) : Prop where
  position : layout.top scrollTop.itemIx + scrollTop.offsetInItem =
    state.alignment.settle (state.renderedEnd layout padding) (state.anchorTop layout)
  drawn : ∀ index, scrollTop.itemIx ≤ index ↔
    state.logicalScrollTop.itemIx ≤ index ∨
      state.renderedEnd layout padding < state.anchorTop layout ∧
        state.renderedEnd layout padding < layout.top (index + 1)
  bound : state.logicalScrollTop.itemIx ≤ shownTo ∧ shownTo ≤ (S.items state.items).length
  above : ∀ index < (S.items state.items).length, state.logicalScrollTop.itemIx ≤ index →
    (index < shownTo ↔
      padding.top + layout.top index - state.anchorTop layout < layout.availableHeight)

variable {layout : ListLayout E F K} {padding : Edges K} {state : ListState S}

variable [IsStrictOrderedRing K]

/-- The items from the anchor on: the view is short of them exactly if the anchor is behind the
end, and all of them that start in the view are shown. -/
structure RenderedForward (layout : ListLayout E F K) (padding : Edges K) (state : ListState S)
    (forward : LayoutProgress E F K) (shownTo : Nat) : Prop where
  range : layout.MeasuredRange (S.items state.items) state.logicalScrollTop.itemIx
    state.logicalScrollTop.itemIx shownTo forward.measuredItems
  onScreen : layout.OnScreen (S.items state.items) state.logicalScrollTop.itemIx shownTo
    forward.itemLayouts forward.renderedFocusedItem
  height : forward.renderedHeight = padding.top +
    ListLayout.measuredHeight forward.measuredItems
  short : forward.renderedHeight + padding.bottom - state.logicalScrollTop.offsetInItem <
    layout.availableHeight ↔ state.renderedEnd layout padding < state.anchorTop layout
  all : state.renderedEnd layout padding < state.anchorTop layout →
    forward.renderedHeight + padding.bottom = padding.top +
      layout.top (S.items state.items).length + padding.bottom -
        layout.top state.logicalScrollTop.itemIx
  above : ∀ index < (S.items state.items).length, state.logicalScrollTop.itemIx ≤ index →
    (index < shownTo ↔
      padding.top + layout.top index - state.anchorTop layout < layout.availableHeight)

theorem Renderable.renderForward (list : state.Renderable layout padding) :
    ∃ shownTo, state.RenderedForward layout padding
      (layout.renderForward state.logicalScrollTop.offsetInItem state.logicalScrollTop.itemIx
        ((S.items state.items).drop state.logicalScrollTop.itemIx)
        ⟨[], [], padding.top, 0, false⟩) shownTo := by
  have bound := list.valid.scrollTop_le
  rcases ListLayout.renderForward_first ⟨list.valid.heights, list.rendered⟩ bound padding.top
    state.logicalScrollTop.offsetInItem with ⟨shownTo, range, onScreen, height, fills, ends⟩
  have above : ∀ itemLayout ∈ (layout.renderForward state.logicalScrollTop.offsetInItem
      state.logicalScrollTop.itemIx ((S.items state.items).drop state.logicalScrollTop.itemIx)
      ⟨[], [], padding.top, 0, false⟩).itemLayouts,
      padding.top + layout.top itemLayout.index - state.anchorTop layout <
        layout.availableHeight := by
    intro itemLayout member
    rcases ListLayout.renderForward_above list.same ⟨[], [], padding.top, 0, false⟩ rfl
      (sub_add_cancel padding.top (layout.top state.logicalScrollTop.itemIx)).symm itemLayout
      member with none | above
    · cases none
    · rw [anchorTop]
      linarith
  have shownHeight := layout.shownHeight_shown range.inside.2.1
  have layouts := onScreen.layouts
  have measured := list.same.measuredHeight range
  generalize layout.renderForward state.logicalScrollTop.offsetInItem
    state.logicalScrollTop.itemIx ((S.items state.items).drop state.logicalScrollTop.itemIx)
    ⟨[], [], padding.top, 0, false⟩ = forward at *
  have rangeBound := range.bound
  have bottom := list.padding.2
  have overdraw := list.overdraw
  have isShort : forward.renderedHeight + padding.bottom - state.logicalScrollTop.offsetInItem <
      layout.availableHeight ↔
        state.renderedEnd layout padding < state.anchorTop layout := by
    rw [renderedEnd, anchorTop]
    rcases ends with atEnd | reaches
    · rw [← atEnd, ← measured]
      constructor
      · intro short
        linarith
      · intro behind
        linarith
    · have less := ListLayout.top_mono list.rendered rangeBound
      constructor
      · intro short
        linarith
      · intro behind
        linarith
  refine ⟨shownTo, range, onScreen, height, isShort, ?_, ?_⟩
  · intro behind
    rcases ends with atEnd | reaches
    · rw [← atEnd, ← measured, height]
      ring
    · have short := isShort.mpr behind
      linarith
  · intro index inList fromAnchor
    constructor
    · intro inside
      apply above (layout.itemLayout index)
      rw [layouts]
      exact layout.itemLayout_mem_shown fromAnchor inside
    · intro isAbove
      by_contra behind
      have less := ListLayout.top_mono list.rendered (not_lt.mp behind)
      rw [anchorTop] at isAbove
      rcases fills with ⟨all, same⟩ | ⟨full, _⟩
      · rw [layouts, shownHeight] at same
        rcases ends with atEnd | reaches
        · omega
        · linarith
      · rw [layouts, shownHeight] at full
        linarith

/-- A list that is laid out is settled. -/
theorem Renderable.renderVisible (list : state.Renderable layout padding) :
    let view := state.renderVisible layout padding
    ∃ shownTo, state.Settled layout padding view.scrollTop shownTo ∧
      view.progress.itemLayouts = layout.shown view.scrollTop.itemIx shownTo := by
  have bound := list.valid.scrollTop_le
  have around := around_seek_atCount state.items bound
  rcases list.renderForward with ⟨shownTo, rendered⟩
  dsimp only
  rw [ListState.renderVisible]
  dsimp only
  rw [around.2]
  generalize layout.renderForward state.logicalScrollTop.offsetInItem
    state.logicalScrollTop.itemIx ((S.items state.items).drop state.logicalScrollTop.itemIx)
    ⟨[], [], padding.top, 0, false⟩ = forward at *
  have ordered := rendered.range.inside.2.1
  have inList := rendered.range.inside.2.2.trans rendered.range.bound
  by_cases short : state.renderedEnd layout padding < state.anchorTop layout
  · rw [if_pos (rendered.short.mpr short)]
    have heightBoth : forward.renderedHeight + padding.bottom =
        padding.top + padding.bottom + ListLayout.measuredHeight forward.measuredItems := by
      rw [rendered.height, add_right_comm]
    rcases ListLayout.fillUpward_spec list.rendered
      { forward with renderedHeight := forward.renderedHeight + padding.bottom } around.1
      rendered.range rendered.onScreen heightBoth (add_sub_cancel _ _).symm with
      ⟨start, passed, _, range, onScreen, _⟩
    rcases layout.fillUpward_front
      { forward with renderedHeight := forward.renderedHeight + padding.bottom } bound around.1
      (rendered.all short) with ⟨front, less, passedFront, filled, fills, above⟩
    have count := ListLayout.start_take (range.inside.2.1.trans
      (range.inside.2.2.trans range.bound)) passed
    have countFront := ListLayout.start_take (less.trans bound) passedFront
    have isFront : start = front := count.symm.trans countFront
    generalize layout.fillUpward _ _ = up at *
    have all : shownTo = (S.items state.items).length := by
      by_contra notAll
      have less := ListLayout.top_mono list.rendered inList
      have bottom := list.padding.2
      have starts := (rendered.above shownTo (by omega) ordered).mpr (by
        rw [renderedEnd] at short
        linarith)
      exact lt_irrefl shownTo starts
    have drawn : ∀ index, front ≤ index ↔ state.logicalScrollTop.itemIx ≤ index ∨
        state.renderedEnd layout padding < state.anchorTop layout ∧
          state.renderedEnd layout padding < layout.top (index + 1) := by
      intro index
      constructor
      · intro fromFront
        by_cases behind : state.logicalScrollTop.itemIx ≤ index
        · exact Or.inl behind
        · have beyond := above (index + 1) (by omega) (by omega)
          rw [renderedEnd] at short ⊢
          exact Or.inr ⟨short, by linarith⟩
      · rintro (behind | ⟨_, beyond⟩)
        · exact less.trans behind
        · rcases fills with reaches | atStart
          · by_contra before
            have ordered := ListLayout.top_mono list.rendered (not_le.mp before)
            rw [Nat.succ_eq_add_one] at ordered
            rw [renderedEnd] at beyond
            linarith
          · omega
    have offset : up.2.renderedHeight - layout.availableHeight =
        state.renderedEnd layout padding - layout.top front := by
      rw [filled, renderedEnd]
      ring
    have settled : ∀ scrollTop : ListOffset K, scrollTop.itemIx = front →
        layout.top front + scrollTop.offsetInItem =
          state.alignment.settle (state.renderedEnd layout padding) (state.anchorTop layout) →
        state.Settled layout padding scrollTop shownTo ∧
          up.2.itemLayouts = layout.shown scrollTop.itemIx shownTo := by
      rintro ⟨itemIx, offsetInItem⟩ rfl position
      refine ⟨⟨position, drawn, ⟨ordered, inList⟩, rendered.above⟩, ?_⟩
      rw [onScreen.layouts, isFront]
    cases alignment : state.alignment with
    | top =>
        refine ⟨shownTo, settled _ countFront ?_⟩
        dsimp only
        rw [alignment, ListAlignment.settle_top short, offset]
        rcases fills with reaches | rfl
        · have nonneg := ListLayout.top_mono list.rendered (Nat.zero_le front)
          rw [ListLayout.top_zero] at nonneg
          have inside : layout.top front ≤ state.renderedEnd layout padding := by
            rw [renderedEnd]
            linarith
          rw [max_eq_left (sub_nonneg.mpr inside), max_eq_left (nonneg.trans inside),
            add_sub_cancel]
        · rw [ListLayout.top_zero, sub_zero, zero_add]
    | bottom =>
        refine ⟨shownTo, settled _ countFront ?_⟩
        dsimp only
        rw [alignment, ListAlignment.settle_bottom short, offset, add_sub_cancel]
  · rw [if_neg (mt rendered.short.mp short)]
    refine ⟨shownTo, ⟨?_, ?_, ⟨ordered, inList⟩, rendered.above⟩, rendered.onScreen.layouts⟩
    · rw [ListAlignment.settle_of_le (not_lt.mp short)]
      rfl
    · intro index
      simp only [short, false_and, or_false]

omit [IsStrictOrderedRing K] in
/-- What is rendered are items of the list. -/
theorem LaidOut.each {next : ListState S} {response : LayoutItemsResponse E K}
    {first shownTo last : Nat}
    (laidOut : LaidOut layout padding state next response first shownTo last) :
    ∀ itemLayout ∈ response.itemLayouts, itemLayout = layout.itemLayout itemLayout.index ∧
      itemLayout.index < (S.items state.items).length := by
  intro itemLayout member
  have ordered := laidOut.ordered
  rcases laidOut.itemLayouts with ⟨trailing, layouts, isTrailing⟩
  rw [layouts, List.mem_append] at member
  rcases member with shown | isTrailingItem
  · rcases List.mem_map.mp shown with ⟨index, inRange, rfl⟩
    rw [List.mem_range'_1] at inRange
    refine ⟨rfl, ?_⟩
    change index < _
    omega
  · rcases isTrailing itemLayout (Option.mem_toList.mp isTrailingItem) with
      ⟨same, _, item, here, _⟩
    rw [laidOut.items, Option.map_eq_some_iff] at here
    rcases here with ⟨old, isOld, _⟩
    exact ⟨same, (List.getElem?_eq_some_iff.mp isOld).1⟩

variable {height : K} {renderItem : Nat → E × Size K} {containsFocused : F → Bool}

/-- What is drawn follows from the anchor, and at most one other item is, out of view. -/
theorem Renderable.layoutItems
    (list : state.Renderable ⟨height, state.overdraw, renderItem, containsFocused⟩ padding) :
    let layout : ListLayout E F K := ⟨height, state.overdraw, renderItem, containsFocused⟩
    let response := (state.layoutItems height padding renderItem containsFocused).1
    ∃ shownTo trailing, state.Settled layout padding response.scrollTop shownTo ∧
      response.itemLayouts =
        layout.shown response.scrollTop.itemIx shownTo ++ Option.toList trailing ∧
      ∀ found ∈ trailing, found = layout.itemLayout found.index ∧
        found.index < (S.items state.items).length ∧
        ¬ (response.scrollTop.itemIx ≤ found.index ∧ found.index < shownTo) := by
  dsimp only
  rcases layoutItems_laidOut list.valid height padding renderItem containsFocused list.rendered with
    ⟨first, lastShown, last, laidOut⟩
  rcases list.renderVisible with ⟨shownTo, settled, layouts⟩
  have isSplit : ∃ trailing : Option (ItemLayout E K),
      (state.layoutItems height padding renderItem containsFocused).1.itemLayouts =
        (state.renderVisible ⟨height, state.overdraw, renderItem, containsFocused⟩
          padding).progress.itemLayouts ++ trailing.toList := by
    rw [ListState.layoutItems]
    dsimp only
    split_ifs
    · exact ⟨none, (List.append_nil _).symm⟩
    · exact ⟨_, rfl⟩
  rcases isSplit with ⟨trailing, isSplit⟩
  rw [layouts] at isSplit
  refine ⟨shownTo, trailing, settled, isSplit, ?_⟩
  intro found isFound
  have member : found ∈ (state.layoutItems height padding renderItem containsFocused).1.itemLayouts
  · rw [isSplit, List.mem_append, Option.mem_toList]
    exact Or.inr isFound
  have each := laidOut.each found member
  refine ⟨each.1, each.2, ?_⟩
  rintro ⟨behind, before⟩
  have distinct := laidOut.distinct
  rw [isSplit, List.map_append, List.nodup_append] at distinct
  refine distinct.2.2 found.index ?_ found.index ?_ rfl
  · exact List.mem_map.mpr
      ⟨_, ListLayout.itemLayout_mem_shown _ behind before, rfl⟩
  · exact List.mem_map_of_mem (Option.mem_toList.mpr isFound)

/-- A list that has been laid out can be laid out again, from any anchor in it. -/
theorem Renderable.laidOut
    (list : state.Renderable ⟨height, state.overdraw, renderItem, containsFocused⟩ padding)
    {anchor : ListOffset K} (bound : anchor.itemIx ≤ (S.items state.items).length) :
    let next : ListState S :=
      { (state.layoutItems height padding renderItem containsFocused).2 with
        logicalScrollTop? := some anchor }
    (S.items next.items).length = (S.items state.items).length ∧
      next.Renderable ⟨height, next.overdraw, renderItem, containsFocused⟩ padding := by
  have overdraw : (state.layoutItems height padding renderItem containsFocused).2.overdraw =
      state.overdraw := rfl
  dsimp only
  rw [overdraw]
  rcases layoutItems_laidOut list.valid height padding renderItem containsFocused list.rendered with
    ⟨first, shownTo, last, laidOut⟩
  generalize state.layoutItems height padding renderItem containsFocused = result at *
  have length := congrArg List.length laidOut.focusHandles
  rw [List.length_map, List.length_map] at length
  refine ⟨length, ⟨?_, laidOut.valid.heights⟩, ?_, list.rendered, list.padding, list.overdraw⟩
  · intro other isOther
    rw [← Option.some.inj isOther, length]
    exact bound
  · intro index item here size isSize
    dsimp only at here
    rw [laidOut.items index, Option.map_eq_some_iff] at here
    rcases here with ⟨old, isOld, rfl⟩
    split_ifs at isSize
    · rw [ListLayout.measuredItem, ListItem.size, Option.mem_some_iff] at isSize
      rw [← isSize]
      split_ifs
      · rfl
      · exact list.same.size_height isOld
    · exact list.same index old isOld size isSize

end ListState

end Gpui
