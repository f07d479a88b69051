import Gpui.Elements.ListSettle

/-!
# Autoscroll in a list

An item that is prepainted may request that bounds of it are scrolled into view.  The prepaint is
then given up, and the list is prepainted once more from an anchor from which the bounds are in
view: at their start, or where they end above the padding at the bottom.

A focused item that is out of view is prepainted behind the visible ones, which is not its place
in the list.
-/

namespace Gpui

open Library ListItemSummary

variable {E F K : Type} [Field K] [LinearOrder K]

/-- What a list is prepainted with: the bounds it gets, its padding, the elements of its items,
whether a focus handle contains the focus, and the bounds, from its own origin on, that an
element requests to be scrolled to. -/
structure ListPrepaint (E F K : Type) where
  bounds : Bounds K
  padding : Edges K
  renderItem : Nat → E × Size K
  containsFocused : F → Bool
  autoscroll : E → Option (Bounds K)

namespace ListPrepaint

/-- `prepaint_at`, with the bounds that are requested in the window. -/
def prepaintAt (list : ListPrepaint E F K) (element : E) (origin : Point K) : Option (Bounds K) :=
  (list.autoscroll element).map fun bounds =>
    { bounds with
      origin := ⟨origin.x + bounds.origin.x, origin.y + bounds.origin.y⟩ }

/-- The same without the requests. -/
def withoutAutoscroll (list : ListPrepaint E F K) : ListPrepaint E F K :=
  { list with autoscroll := fun _ => none }

end ListPrepaint

namespace ListState

variable {S : ListItems F K}

/-- `layout_all_items`. -/
def layoutAllItems (self : ListState S) (list : ListPrepaint E F K) : ListState S :=
  match self.measuringBehavior with
  | .visible => self
  | .measure true => self
  | .measure false =>
      { self with
        measuringBehavior := .measure true
        items := S.fromIter ((S.items self.items).mapIdx fun ix item =>
          .measured (item.size.getD (list.renderItem ix).2) item.focusHandle) }

/-- Decrease the scroll top while there is space above. -/
def decreaseScrollTop (list : ListPrepaint E F K) (cursor : S.Cursor) (height : K) :
    S.Cursor × K :=
  if 0 < height then
    match _here : S.item (S.prev cursor) with
    | some item =>
        let size := item.size.getD (list.renderItem (S.start (S.prev cursor)).count).2
        decreaseScrollTop list (S.prev cursor) (height - size.height)
    | none => (S.prev cursor, height)
  else (cursor, height)
termination_by (S.passed cursor).length
decreasing_by exact ListLayout.length_passed_prev_lt _here

/-- The anchor for a request of an item that is prepainted at an origin, unless the bounds are
inside those of the list. -/
def autoscrollTo (self : ListState S) (list : ListPrepaint E F K) (index : Nat)
    (itemOrigin : Point K) (autoscrollBounds : Bounds K) : Option (ListOffset K) :=
  if autoscrollBounds.origin.y < list.bounds.origin.y then
    some ⟨index, autoscrollBounds.origin.y - itemOrigin.y⟩
  else if list.bounds.origin.y + list.bounds.size.height <
      autoscrollBounds.origin.y + autoscrollBounds.size.height then
    let cursor := S.seek (atCount index) .right self.items
    let height := list.bounds.size.height - list.padding.top - list.padding.bottom
    -- the height of the element down until the autoscroll bottom
    let height :=
      height - (autoscrollBounds.origin.y + autoscrollBounds.size.height - itemOrigin.y)
    let (cursor, height) := decreaseScrollTop list cursor height
    some ⟨(S.start cursor).count, if height < 0 then -height else 0⟩
  else none

/-- The items are prepainted below each other, until one of them requests what is out of view. -/
def prepaintLayouts (self : ListState S) (list : ListPrepaint E F K) (autoscroll : Bool) :
    Point K → List (ItemLayout E K) → Option (ListOffset K)
  | _, [] => none
  | itemOrigin, item :: itemLayouts =>
      let request := (list.prepaintAt item.element itemOrigin).bind fun autoscrollBounds =>
        if autoscroll then self.autoscrollTo list item.index itemOrigin autoscrollBounds else none
      match request with
      | some anchor => some anchor
      | none =>
          prepaintLayouts self list autoscroll
            ⟨itemOrigin.x, itemOrigin.y + item.size.height⟩ itemLayouts

/-- `prepaint_items`. -/
def prepaintItems (self : ListState S) (list : ListPrepaint E F K) (autoscroll : Bool) :
    Except (ListOffset K) (LayoutItemsResponse E K) × ListState S :=
  let self := self.layoutAllItems list
  let (layoutResponse, self) := self.layoutItems list.bounds.size.height list.padding
    list.renderItem list.containsFocused
  -- only if there is actually any space for the items
  if list.padding.top + list.padding.bottom < list.bounds.size.height then
    let itemOrigin : Point K :=
      ⟨list.bounds.origin.x,
        list.bounds.origin.y + list.padding.top - layoutResponse.scrollTop.offsetInItem⟩
    match self.prepaintLayouts list autoscroll itemOrigin layoutResponse.itemLayouts with
    | some anchor => (.error anchor, self)
    | none => (.ok layoutResponse, self)
  else (.ok { layoutResponse with itemLayouts := [] }, self)

/-- If the width of the list has changed, no cached height is kept. -/
def invalidateSizes (self : ListState S) (list : ListPrepaint E F K) : ListState S :=
  if self.lastLayoutBounds.all fun lastBounds =>
      lastBounds.size.width ≠ list.bounds.size.width then
    { self with
      items := S.fromIter ((S.items self.items).map fun item => .unmeasured item.focusHandle) }
  else self

/-- `List::prepaint`.  There is no result if the second attempt fails. -/
def prepaint (self : ListState S) (list : ListPrepaint E F K) :
    Option (LayoutItemsResponse E K × ListState S) :=
  let self := { self with isReset := false }.invalidateSizes list
  let result :=
    match self.prepaintItems list true with
    | (.ok layout, self) => some (layout, self)
    | (.error autoscrollRequest, self) =>
        match { self with logicalScrollTop? := some autoscrollRequest }.prepaintItems list
            false with
        | (.ok layout, self) => some (layout, self)
        | (.error _, _) => none
  result.map fun (layout, self) =>
    (layout, { self with
      lastLayoutBounds := some list.bounds
      lastPadding := some list.padding })

end ListState

/-! ## What is expected -/

/-- The list is laid out in its bounds. -/
def ListPrepaint.layout (list : ListPrepaint E F K) (overdraw : K) : ListLayout E F K :=
  ⟨list.bounds.size.height, overdraw, list.renderItem, list.containsFocused⟩

namespace ListState

variable {S : ListItems F K} (state : ListState S) (list : ListPrepaint E F K)

/-- A list can be prepainted: the sizes that it keeps have the heights that its items are rendered
with, and no height is negative. -/
structure Prepaintable : Prop where
  valid : state.Valid
  same : state.lastLayoutBounds.map (fun lastBounds => lastBounds.size.width) =
      some list.bounds.size.width →
    (list.layout state.overdraw).SameHeights (S.items state.items)
  rendered : ∀ index, 0 ≤ (list.renderItem index).2.height
  padding : 0 ≤ list.padding.top ∧ 0 ≤ list.padding.bottom
  overdraw : 0 ≤ state.overdraw

/-- Of the items that are prepainted at first, exactly one requests to be scrolled to, to bounds
inside it that are no higher than the view without its padding. -/
structure Requested (index : Nat) (request : Bounds K) : Prop where
  prepainted : list.padding.top + list.padding.bottom < list.bounds.size.height
  only : ∃ response next, state.prepaint list.withoutAutoscroll = some (response, next) ∧
    index ∈ response.itemLayouts.map ItemLayout.index ∧
    ∀ itemLayout ∈ response.itemLayouts, list.autoscroll itemLayout.element =
      if itemLayout.index = index then some request else none
  inside : 0 ≤ request.origin.y ∧ 0 ≤ request.size.height ∧
    request.origin.y + request.size.height ≤ (list.renderItem index).2.height
  fits : request.size.height ≤
    list.bounds.size.height - list.padding.top - list.padding.bottom

/-- Where an anchor is. -/
def positionOf (scrollTop : ListOffset K) : K :=
  (list.layout state.overdraw).top scrollTop.itemIx + scrollTop.offsetInItem

/-- The rows of bounds of an item, at its place in a list that starts at a position, are inside
the bounds of the list. -/
def RowsInside (position : K) (index : Nat) (request : Bounds K) : Prop :=
  let itemTop := list.bounds.origin.y + list.padding.top +
    (list.layout state.overdraw).top index - position
  list.bounds.origin.y ≤ itemTop + request.origin.y ∧
    itemTop + request.origin.y + request.size.height ≤
      list.bounds.origin.y + list.bounds.size.height

/-- What is expected of a request: the list is prepainted from where the bounds are inside, and
that is where it would be without the request if they were inside there. -/
def RevealsRequest (index : Nat) (request : Bounds K) : Prop :=
  ∃ response next still stillNext, state.prepaint list = some (response, next) ∧
    state.prepaint list.withoutAutoscroll = some (still, stillNext) ∧
    state.RowsInside list (state.positionOf list response.scrollTop) index request ∧
    (state.RowsInside list (state.positionOf list still.scrollTop) index request →
      state.positionOf list response.scrollTop = state.positionOf list still.scrollTop)

/-- Where the list is settled that starts at a position. -/
def prepaintTop (position : K) : K :=
  state.alignment.settle (state.renderedEnd (list.layout state.overdraw) list.padding) position

/-- An item is drawn at its place: it starts above the bottom of the view, or it is in front of the
anchor and the list is at its end. -/
def ShownInPlace (index : Nat) : Prop :=
  let layout := list.layout state.overdraw
  if state.logicalScrollTop.itemIx ≤ index then
    list.padding.top + layout.top index - state.anchorTop layout < layout.availableHeight
  else state.renderedEnd layout list.padding < state.anchorTop layout ∧
    state.renderedEnd layout list.padding < layout.top (index + 1)

/-- Drawn behind the visible items, the bounds are above the bottom of the view. -/
def TakenForVisible (request : Bounds K) : Prop :=
  let layout := list.layout state.overdraw
  ∃ last, state.logicalScrollTop.itemIx ≤ last ∧ last ≤ (S.items state.items).length ∧
    (last = (S.items state.items).length ∨ layout.availableHeight ≤
      list.padding.top + layout.top last - state.anchorTop layout) ∧
    list.padding.top + layout.top last - state.prepaintTop list (state.anchorTop layout) +
      request.origin.y + request.size.height ≤ layout.availableHeight

/-- The position at which the bounds end above the padding, unless it is in front of the list. -/
def requestTop (index : Nat) (request : Bounds K) : K :=
  max 0 ((list.layout state.overdraw).top index + request.origin.y + request.size.height +
    list.padding.top + list.padding.bottom - list.bounds.size.height)

/-- The item is at its place, or it is not taken for visible if its bounds are not, and is where
they are scrolled to if they are. -/
def RevealedInPlace (index : Nat) (request : Bounds K) : Prop :=
  let position := state.prepaintTop list (state.anchorTop (list.layout state.overdraw))
  state.ShownInPlace list index ∨
    (state.TakenForVisible list request → state.RowsInside list position index request) ∧
    (¬ state.TakenForVisible list request → state.RowsInside list position index request →
      state.prepaintTop list (state.requestTop list index request) = position)

end ListState

/-! ## The anchor for a request -/

namespace ListState

variable {S : ListItems F K} {state : ListState S} {list : ListPrepaint E F K}
  {items : List (ListItem F K)} {overdraw : K}

/-- The scroll top is decreased until there is no space left, or no item. -/
theorem decreaseScrollTop_spec (same : (list.layout overdraw).SameHeights items)
    {cursor : S.Cursor} {first : Nat} (height : K) (bound : first ≤ items.length)
    (passed : S.passed cursor = items.take first) :
    let result := decreaseScrollTop list cursor height
    ∃ front ≤ first, S.passed result.1 = items.take front ∧
      result.2 = height - ((list.layout overdraw).top first - (list.layout overdraw).top front) ∧
      (result.2 ≤ 0 ∨ front = 0) := by
  induction first generalizing cursor height with
  | zero =>
      have before := S.prev_first passed
      dsimp only
      rw [decreaseScrollTop]
      by_cases space : 0 < height
      · rw [if_pos space]
        split
        · rename_i item here
          rw [before.2] at here
          cases here
        · exact ⟨0, le_rfl, before.1, by rw [sub_self, sub_zero], Or.inr rfl⟩
      · rw [if_neg space]
        exact ⟨0, le_rfl, passed, by rw [sub_self, sub_zero], Or.inr rfl⟩
  | succ first ih =>
      have before := S.prev_take bound passed
      have start := ListLayout.start_take (by omega) before.1
      dsimp only
      rw [decreaseScrollTop]
      by_cases space : 0 < height
      · rw [if_pos space]
        split
        · rename_i item here
          rw [start]
          have isItem : items[first]? = some item := by
            rw [← here, before.2]
            exact List.getElem?_eq_getElem _
          have size : (item.size.getD (list.renderItem first).2).height =
            (list.renderItem first).2.height := same.size_height isItem
          rcases ih (height - (item.size.getD (list.renderItem first).2).height) (by omega)
            before.1 with ⟨front, less, passed, left, ends⟩
          refine ⟨front, by omega, passed, ?_, ends⟩
          rw [left, ListLayout.top_succ, size]
          change _ - (list.renderItem first).2.height - _ =
            _ - (_ + (list.renderItem first).2.height - _)
          ring
        · rename_i none
          rw [before.2] at none
          cases none
      · rw [if_neg space]
        exact ⟨first + 1, le_rfl, passed, by rw [sub_self, sub_zero], Or.inl (not_lt.mp space)⟩

/-- A request as it is made in the window. -/
def requestAt (itemOrigin : Point K) (request : Bounds K) : Bounds K :=
  { request with
    origin := ⟨itemOrigin.x + request.origin.x, itemOrigin.y + request.origin.y⟩ }

theorem autoscrollTo_above {index : Nat} {itemOrigin : Point K} {request : Bounds K}
    (above : itemOrigin.y + request.origin.y < list.bounds.origin.y) :
    state.autoscrollTo list index itemOrigin (requestAt itemOrigin request) =
      some ⟨index, request.origin.y⟩ := by
  rw [autoscrollTo, requestAt]
  dsimp only
  rw [if_pos above, add_sub_cancel_left]

theorem autoscrollTo_inside {index : Nat} {itemOrigin : Point K} {request : Bounds K}
    (notAbove : list.bounds.origin.y ≤ itemOrigin.y + request.origin.y)
    (notBelow : itemOrigin.y + request.origin.y + request.size.height ≤
      list.bounds.origin.y + list.bounds.size.height) :
    state.autoscrollTo list index itemOrigin (requestAt itemOrigin request) = none := by
  rw [autoscrollTo, requestAt]
  dsimp only
  rw [if_neg (not_lt.mpr notAbove), if_neg (not_lt.mpr notBelow)]

theorem autoscrollTo_below [IsStrictOrderedRing K] {index : Nat} {itemOrigin : Point K}
    {request : Bounds K}
    (same : (list.layout state.overdraw).SameHeights (S.items state.items))
    (rendered : ∀ index, 0 ≤ (list.renderItem index).2.height)
    (bound : index ≤ (S.items state.items).length)
    (notAbove : list.bounds.origin.y ≤ itemOrigin.y + request.origin.y)
    (below : list.bounds.origin.y + list.bounds.size.height <
      itemOrigin.y + request.origin.y + request.size.height) :
    ∃ anchor, state.autoscrollTo list index itemOrigin (requestAt itemOrigin request) =
        some anchor ∧ anchor.itemIx ≤ index ∧
      state.positionOf list anchor = state.requestTop list index request := by
  rw [autoscrollTo, requestAt]
  dsimp only
  rw [if_neg (not_lt.mpr notAbove), if_pos below]
  rcases decreaseScrollTop_spec same (list.bounds.size.height - list.padding.top -
      list.padding.bottom -
        (itemOrigin.y + request.origin.y + request.size.height - itemOrigin.y))
    bound (around_seek_atCount state.items bound).1 with ⟨front, less, passed, left, ends⟩
  generalize decreaseScrollTop list _ _ = result at *
  have start := ListLayout.start_take (less.trans bound) passed
  refine ⟨_, rfl, start.trans_le less, ?_⟩
  rw [positionOf, requestTop]
  dsimp only
  rw [start]
  have nonneg : 0 ≤ (list.layout state.overdraw).top front :=
    (list.layout state.overdraw).top_zero ▸ ListLayout.top_mono rendered (Nat.zero_le front)
  rcases lt_trichotomy result.2 0 with negative | zero | positive
  · rw [if_pos negative, max_eq_right]
    · linarith
    · linarith
  · rw [zero, if_neg (lt_irrefl 0), max_eq_right]
    · linarith
    · linarith
  · have isFirst := ends.resolve_left (not_le.mpr positive)
    rw [if_neg positive.asymm, isFirst, ListLayout.top_zero, add_zero, max_eq_left]
    rw [isFirst, ListLayout.top_zero] at left
    linarith

/-- Items without a request are passed. -/
theorem prepaintLayouts_append (state : ListState S) {autoscroll : Bool}
    {before after : List (ItemLayout E K)} (itemOrigin : Point K)
    (silent : ∀ itemLayout ∈ before, list.autoscroll itemLayout.element = none) :
    state.prepaintLayouts list autoscroll itemOrigin (before ++ after) =
      state.prepaintLayouts list autoscroll
        ⟨itemOrigin.x, itemOrigin.y + ListLayout.shownHeight before⟩ after := by
  induction before generalizing itemOrigin with
  | nil =>
      rw [List.nil_append, ListLayout.shownHeight, List.map_nil, List.sum_nil, add_zero]
  | cons item before ih =>
      have none := silent item List.mem_cons_self
      rw [List.cons_append, prepaintLayouts, ListPrepaint.prepaintAt, none, Option.map_none,
        Option.bind_none]
      dsimp only
      rw [ih _ fun itemLayout member => silent itemLayout (List.mem_cons_of_mem item member),
        ListLayout.shownHeight_cons, add_assoc]

theorem prepaintLayouts_silent (state : ListState S) {autoscroll : Bool}
    {itemLayouts : List (ItemLayout E K)} (itemOrigin : Point K)
    (silent : ∀ itemLayout ∈ itemLayouts, list.autoscroll itemLayout.element = none) :
    state.prepaintLayouts list autoscroll itemOrigin itemLayouts = none := by
  rw [← List.append_nil itemLayouts, state.prepaintLayouts_append itemOrigin silent]
  rfl

/-- Of one request it is decided where its item is drawn. -/
theorem prepaintLayouts_only (state : ListState S) {before after : List (ItemLayout E K)}
    {item : ItemLayout E K} {request : Bounds K} (itemOrigin : Point K)
    (silentBefore : ∀ itemLayout ∈ before, list.autoscroll itemLayout.element = none)
    (requested : list.autoscroll item.element = some request)
    (silentAfter : ∀ itemLayout ∈ after, list.autoscroll itemLayout.element = none) :
    let drawnAt : Point K := ⟨itemOrigin.x, itemOrigin.y + ListLayout.shownHeight before⟩
    state.prepaintLayouts list true itemOrigin (before ++ item :: after) =
      state.autoscrollTo list item.index drawnAt (requestAt drawnAt request) := by
  dsimp only
  rw [state.prepaintLayouts_append itemOrigin silentBefore, prepaintLayouts,
    ListPrepaint.prepaintAt, requested, Option.map_some, Option.bind_some, if_pos rfl]
  change (match state.autoscrollTo list item.index _ (requestAt _ request) with
    | some anchor => some anchor
    | none => _) = _
  rw [state.prepaintLayouts_silent _ silentAfter]
  split
  · rename_i honoured
    exact honoured.symm
  · rename_i ignored
    exact ignored.symm

/-- No request is honoured when the list is prepainted again. -/
theorem prepaintLayouts_false (state : ListState S) (itemLayouts : List (ItemLayout E K))
    (itemOrigin : Point K) :
    state.prepaintLayouts list false itemOrigin itemLayouts = none := by
  induction itemLayouts generalizing itemOrigin with
  | nil => rfl
  | cons item itemLayouts ih =>
      have none : (list.prepaintAt item.element itemOrigin).bind (fun autoscrollBounds =>
          if false = true then
            state.autoscrollTo list item.index itemOrigin autoscrollBounds
          else none) = none := by
        cases list.prepaintAt item.element itemOrigin with
        | none => rfl
        | some _ => rfl
      rw [prepaintLayouts, none]
      exact ih _

/-! ## The two attempts -/

/-- The list before its items are laid out. -/
def prepared (state : ListState S) (list : ListPrepaint E F K) : ListState S :=
  ({ state with isReset := false }.invalidateSizes list).layoutAllItems list

/-- The list as it is laid out, of whatever state is prepared. -/
def laidOutIn (state : ListState S) (list : ListPrepaint E F K) :
    LayoutItemsResponse E K × ListState S :=
  state.layoutItems list.bounds.size.height list.padding list.renderItem list.containsFocused

/-- The request that is honoured. -/
def firstRequest (state : ListState S) (list : ListPrepaint E F K) : Option (ListOffset K) :=
  let (response, next) := (state.prepared list).laidOutIn list
  next.prepaintLayouts list true
    ⟨list.bounds.origin.x,
      list.bounds.origin.y + list.padding.top - response.scrollTop.offsetInItem⟩
    response.itemLayouts

/-- A list that is viewed as another one is. -/
structure SameView (state next : ListState S) : Prop where
  overdraw : next.overdraw = state.overdraw
  alignment : next.alignment = state.alignment
  anchor : next.logicalScrollTop? = state.logicalScrollTop?
  length : (S.items next.items).length = (S.items state.items).length

omit [LinearOrder K] in
theorem SameView.scrollTop {next : ListState S} (same : SameView state next) :
    next.logicalScrollTop = state.logicalScrollTop := by
  rw [logicalScrollTop, logicalScrollTop, same.anchor, same.alignment, SummedSequence.total,
    SummedSequence.total, sum_count, sum_count, same.length]

omit [LinearOrder K] in
theorem SameView.trans {next last : ListState S} (first : SameView state next)
    (second : SameView next last) : SameView state last := by
  constructor
  · exact second.overdraw.trans first.overdraw
  · exact second.alignment.trans first.alignment
  · exact second.anchor.trans first.anchor
  · exact second.length.trans first.length

theorem sameView_invalidateSizes (state : ListState S) (list : ListPrepaint E F K) :
    SameView state (state.invalidateSizes list) := by
  rw [invalidateSizes]
  split_ifs
  · refine SameView.mk rfl rfl rfl ?_
    rw [S.items_fromIter, List.length_map]
  · exact ⟨rfl, rfl, rfl, rfl⟩

omit [LinearOrder K] in
theorem sameView_layoutAllItems (state : ListState S) (list : ListPrepaint E F K) :
    SameView state (state.layoutAllItems list) := by
  rw [layoutAllItems]
  split
  · exact ⟨rfl, rfl, rfl, rfl⟩
  · exact ⟨rfl, rfl, rfl, rfl⟩
  · refine SameView.mk rfl rfl rfl ?_
    rw [S.items_fromIter, List.length_mapIdx]

theorem sameView_prepared (state : ListState S) (list : ListPrepaint E F K) :
    SameView state (state.prepared list) := by
  have reset : SameView state { state with isReset := false } := ⟨rfl, rfl, rfl, rfl⟩
  exact (reset.trans (sameView_invalidateSizes _ list)).trans (sameView_layoutAllItems _ list)

/-- The items are measured at most once. -/
theorem measuringBehavior_prepared (state : ListState S) (list : ListPrepaint E F K) :
    (state.prepared list).measuringBehavior ≠ .measure false := by
  rw [prepared, layoutAllItems]
  split
  · rename_i visible
    rw [visible]
    exact nofun
  · rename_i measured
    rw [measured]
    exact nofun
  · exact nofun

omit [LinearOrder K] in
theorem layoutAllItems_eq_self (measured : state.measuringBehavior ≠ .measure false) :
    state.layoutAllItems list = state := by
  rw [layoutAllItems]
  split
  · rfl
  · rfl
  · rename_i notMeasured
    exact absurd notMeasured measured

/-- Without a request that is honoured, the list is prepainted as it is laid out. -/
theorem prepaint_eq_of_none
    (prepainted : list.padding.top + list.padding.bottom < list.bounds.size.height)
    (silent : state.firstRequest list = none) :
    ∃ next, state.prepaint list = some (((state.prepared list).laidOutIn list).1, next) := by
  have first : ({ state with isReset := false }.invalidateSizes list).prepaintItems list true =
      (.ok ((state.prepared list).laidOutIn list).1,
        ((state.prepared list).laidOutIn list).2) := by
    rw [prepaintItems]
    dsimp only
    rw [if_pos prepainted]
    change (match state.firstRequest list with
      | some anchor => _
      | none => _) = _
    rw [silent]
    rfl
  rw [prepaint, first]
  exact ⟨_, rfl⟩

/-- With one it is laid out again from its anchor. -/
theorem prepaint_eq_of_some
    (prepainted : list.padding.top + list.padding.bottom < list.bounds.size.height)
    {anchor : ListOffset K} (requested : state.firstRequest list = some anchor) :
    ∃ next, state.prepaint list =
      some (({ ((state.prepared list).laidOutIn list).2 with
        logicalScrollTop? := some anchor }.laidOutIn list).1, next) := by
  have first : ({ state with isReset := false }.invalidateSizes list).prepaintItems list true =
      (.error anchor, ((state.prepared list).laidOutIn list).2) := by
    rw [prepaintItems]
    dsimp only
    rw [if_pos prepainted]
    change (match state.firstRequest list with
      | some anchor => _
      | none => _) = _
    rw [requested]
    rfl
  have measured : ((state.prepared list).laidOutIn list).2.measuringBehavior ≠ .measure false :=
    measuringBehavior_prepared state list
  have again : ({ ((state.prepared list).laidOutIn list).2 with
      logicalScrollTop? := some anchor } : ListState S).layoutAllItems list =
      { ((state.prepared list).laidOutIn list).2 with logicalScrollTop? := some anchor } :=
    layoutAllItems_eq_self measured
  rw [prepaint, first]
  dsimp only
  rw [prepaintItems, again]
  dsimp only
  rw [if_pos prepainted, prepaintLayouts_false]
  exact ⟨_, rfl⟩

theorem Prepaintable.sameHeights (prepaintable : state.Prepaintable list) :
    (list.layout state.overdraw).SameHeights
      (S.items ({ state with isReset := false }.invalidateSizes list).items) := by
  rw [invalidateSizes]
  split_ifs with changed
  · intro index item here size isSize
    rw [S.items_fromIter, List.getElem?_map, Option.map_eq_some_iff] at here
    rcases here with ⟨old, _, rfl⟩
    cases isSize
  · apply prepaintable.same
    dsimp only at changed
    cases isBounds : state.lastLayoutBounds with
    | none =>
        rw [isBounds] at changed
        exact absurd rfl changed
    | some lastBounds =>
        rw [isBounds, Option.all_some, decide_eq_true_iff, not_not] at changed
        exact congrArg some changed

omit [LinearOrder K] in
theorem sameHeights_layoutAllItems
    (same : (list.layout overdraw).SameHeights (S.items state.items)) :
    (list.layout overdraw).SameHeights (S.items (state.layoutAllItems list).items) := by
  rw [layoutAllItems]
  split
  · exact same
  · exact same
  · intro index item here size isSize
    rw [S.items_fromIter, List.getElem?_mapIdx, Option.map_eq_some_iff] at here
    rcases here with ⟨old, isOld, rfl⟩
    rw [← Option.some.inj isSize]
    exact same.size_height isOld

/-- A list that is prepared can be laid out. -/
theorem Prepaintable.renderable (prepaintable : state.Prepaintable list) :
    (state.prepared list).Renderable (list.layout state.overdraw) list.padding := by
  have same := sameHeights_layoutAllItems prepaintable.sameHeights
  have view := sameView_prepared state list
  refine ⟨⟨?_, ?_⟩, same, prepaintable.rendered, prepaintable.padding, prepaintable.overdraw⟩
  · intro anchor isAnchor
    rw [view.length]
    exact prepaintable.valid.anchored anchor (view.anchor ▸ isAnchor)
  · exact same.heights prepaintable.rendered

/-! ## Where requests are made -/

/-- An item is drawn at its place if and only if it is one of the visible ones. -/
theorem Settled.shownInPlace_iff {scrollTop : ListOffset K} {shownTo index : Nat}
    (settled : state.Settled (list.layout state.overdraw) list.padding scrollTop shownTo)
    (inList : index < (S.items state.items).length) :
    state.ShownInPlace list index ↔ scrollTop.itemIx ≤ index ∧ index < shownTo := by
  rw [ShownInPlace, settled.drawn]
  by_cases behind : state.logicalScrollTop.itemIx ≤ index
  · rw [if_pos behind, ← settled.above index inList behind]
    exact (and_iff_right (Or.inl behind)).symm
  · rw [if_neg behind]
    have before := (not_le.mp behind).trans_le settled.bound.1
    simp only [behind, before, false_or, and_true]

/-- Where an item is drawn in front of which all items before an index are. -/
def drawnAt (state : ListState S) (list : ListPrepaint E F K) (last : Nat) : Point K :=
  ⟨list.bounds.origin.x, list.bounds.origin.y + list.padding.top +
    (list.layout state.overdraw).top last -
      state.prepaintTop list (state.anchorTop (list.layout state.overdraw))⟩

/-- The one request is decided on where its item is drawn: at its place, or behind the visible
ones. -/
theorem prepaintLayouts_requested {scrollTop : ListOffset K} {shownTo index : Nat}
    {trailing : Option (ItemLayout E K)} {request : Bounds K} (next : ListState S)
    (settled : state.Settled (list.layout state.overdraw) list.padding scrollTop shownTo)
    (isTrailing : ∀ found ∈ trailing, found = (list.layout state.overdraw).itemLayout found.index ∧
      found.index < (S.items state.items).length ∧
      ¬ (scrollTop.itemIx ≤ found.index ∧ found.index < shownTo))
    (isRendered : index ∈ ((list.layout state.overdraw).shown scrollTop.itemIx shownTo ++
      trailing.toList).map ItemLayout.index)
    (only : ∀ itemLayout ∈ (list.layout state.overdraw).shown scrollTop.itemIx shownTo ++
      trailing.toList, list.autoscroll itemLayout.element =
        if itemLayout.index = index then some request else none) :
    index < (S.items state.items).length ∧
      ∃ last, (state.ShownInPlace list index ∧ last = index ∨
          ¬ state.ShownInPlace list index ∧ last = shownTo) ∧
        next.prepaintLayouts list true
            ⟨list.bounds.origin.x,
              list.bounds.origin.y + list.padding.top - scrollTop.offsetInItem⟩
            ((list.layout state.overdraw).shown scrollTop.itemIx shownTo ++ trailing.toList) =
          next.autoscrollTo list index (state.drawnAt list last)
            (requestAt (state.drawnAt list last) request) := by
  have front : scrollTop.itemIx ≤ shownTo :=
    ((settled.drawn _).mpr (Or.inl le_rfl)).trans settled.bound.1
  have isDrawnAt : ∀ last, scrollTop.itemIx ≤ last →
      (⟨list.bounds.origin.x, list.bounds.origin.y + list.padding.top - scrollTop.offsetInItem +
        ListLayout.shownHeight ((list.layout state.overdraw).shown scrollTop.itemIx last)⟩ :
          Point K) = state.drawnAt list last := by
    intro last behind
    rw [drawnAt, prepaintTop, ← settled.position, ListLayout.shownHeight_shown _ behind]
    congr 1
    ring
  have silent : ∀ start stop, ¬ (start ≤ index ∧ index < stop) → scrollTop.itemIx ≤ start →
      stop ≤ shownTo → ∀ itemLayout ∈ (list.layout state.overdraw).shown start stop,
        list.autoscroll itemLayout.element = none := by
    intro start stop outside fromFront toEnd itemLayout member
    rcases List.mem_map.mp member with ⟨other, inRange, rfl⟩
    rw [List.mem_range'_1] at inRange
    have inShown := (list.layout state.overdraw).itemLayout_mem_shown
      (show scrollTop.itemIx ≤ other by omega) (show other < shownTo by omega)
    rw [only _ (List.mem_append_left _ inShown), if_neg]
    intro same
    apply outside
    rw [← show other = index from same]
    omega
  rcases List.mem_map.mp isRendered with ⟨item, member, rfl⟩
  have requested := only item member
  rw [if_pos rfl] at requested
  rw [List.mem_append, Option.mem_toList] at member
  rcases member with shown | isFound
  · rcases List.mem_map.mp shown with ⟨index, inRange, rfl⟩
    rw [List.mem_range'_1] at inRange
    have behind : scrollTop.itemIx ≤ index := inRange.1
    have before : index < shownTo := by omega
    have inList : index < (S.items state.items).length := before.trans_le settled.bound.2
    refine ⟨inList, index, Or.inl ⟨(settled.shownInPlace_iff inList).mpr ⟨behind, before⟩, rfl⟩, ?_⟩
    have silentBefore := silent scrollTop.itemIx index (fun both => lt_irrefl _ both.2) le_rfl
      before.le
    have silentAfter : ∀ itemLayout ∈ (list.layout state.overdraw).shown (index + 1) shownTo ++
        trailing.toList, list.autoscroll itemLayout.element = none := by
      intro itemLayout member
      rcases List.mem_append.mp member with later | isFound
      · exact silent (index + 1) shownTo (fun both => absurd both.1 (Nat.not_succ_le_self index))
          (by omega) le_rfl itemLayout later
      · rw [only _ (List.mem_append_right _ isFound), if_neg]
        intro same
        apply (isTrailing itemLayout (Option.mem_toList.mp isFound)).2.2
        rw [same]
        exact ⟨behind, before⟩
    rw [ListLayout.shown_split _ behind before, List.append_assoc, List.cons_append,
      next.prepaintLayouts_only _ silentBefore requested silentAfter, isDrawnAt index behind]
  · have found := isTrailing item isFound
    refine ⟨found.2.1, shownTo,
      Or.inr ⟨mt (settled.shownInPlace_iff found.2.1).mp found.2.2, rfl⟩, ?_⟩
    rw [Option.mem_def.mp isFound, Option.toList_some, next.prepaintLayouts_only _
      (silent _ _ found.2.2 le_rfl le_rfl) requested (fun _ none => absurd none List.not_mem_nil),
      isDrawnAt shownTo front]

section Behind

variable {scrollTop : ListOffset K} {shownTo : Nat}

/-- The visible items reach the bottom of the view, or there are no more. -/
theorem Settled.reaches
    (settled : state.Settled (list.layout state.overdraw) list.padding scrollTop shownTo) :
    shownTo = (S.items state.items).length ∨
    (list.layout state.overdraw).availableHeight ≤ list.padding.top +
      (list.layout state.overdraw).top shownTo - state.anchorTop (list.layout state.overdraw) := by
  by_cases more : shownTo < (S.items state.items).length
  · have stops := settled.above shownTo more settled.bound.1
    exact Or.inr (not_lt.mp fun starts => lt_irrefl shownTo (stops.mpr starts))
  · exact Or.inl (le_antisymm settled.bound.2 (not_lt.mp more))

variable [IsStrictOrderedRing K]

/-- A list whose anchor is behind the end is shown to its end. -/
theorem Renderable.above_of_behind
    (renderable : state.Renderable (list.layout state.overdraw) list.padding)
    (behind : state.renderedEnd (list.layout state.overdraw) list.padding <
      state.anchorTop (list.layout state.overdraw)) {last : Nat}
    (inList : last ≤ (S.items state.items).length) :
    list.padding.top + (list.layout state.overdraw).top last -
      state.anchorTop (list.layout state.overdraw) <
        (list.layout state.overdraw).availableHeight := by
  have ordered := ListLayout.top_mono renderable.rendered inList
  have bottom := renderable.padding.2
  rw [renderedEnd] at behind
  linarith

/-- Drawn behind the visible items, the bounds are judged by the end of those. -/
theorem Settled.takenForVisible_iff {request : Bounds K}
    (settled : state.Settled (list.layout state.overdraw) list.padding scrollTop shownTo)
    (renderable : state.Renderable (list.layout state.overdraw) list.padding) :
    state.TakenForVisible list request ↔
      (state.drawnAt list shownTo).y + request.origin.y + request.size.height ≤
        list.bounds.origin.y + list.bounds.size.height := by
  have available : (list.layout state.overdraw).availableHeight = list.bounds.size.height := rfl
  rw [TakenForVisible, drawnAt]
  constructor
  · rintro ⟨last, fromAnchor, inList, ends, judged⟩
    have ordered : (list.layout state.overdraw).top shownTo ≤
        (list.layout state.overdraw).top last := by
      apply ListLayout.top_mono renderable.rendered
      rcases ends with rfl | reaches
      · exact settled.bound.2
      · by_contra before
        have inItems : last < (S.items state.items).length :=
          (not_le.mp before).trans_le settled.bound.2
        have above := (settled.above last inItems fromAnchor).mp (not_le.mp before)
        exact absurd reaches (not_le.mpr above)
    dsimp only
    linarith
  · intro judged
    dsimp only at judged
    exact ⟨shownTo, settled.bound.1, settled.bound.2, settled.reaches, by linarith⟩

/-- Behind the visible items nothing is above the view. -/
theorem Settled.drawnAt_behind
    (settled : state.Settled (list.layout state.overdraw) list.padding scrollTop shownTo)
    (renderable : state.Renderable (list.layout state.overdraw) list.padding)
    (prepainted : list.padding.top + list.padding.bottom < list.bounds.size.height) :
    list.bounds.origin.y ≤ (state.drawnAt list shownTo).y := by
  have available : (list.layout state.overdraw).availableHeight = list.bounds.size.height := rfl
  have fromTop := renderable.padding.1
  have fromBottom := renderable.padding.2
  have nonneg := ListLayout.top_mono renderable.rendered (Nat.zero_le shownTo)
  rw [ListLayout.top_zero] at nonneg
  have notAbove : state.prepaintTop list (state.anchorTop (list.layout state.overdraw)) ≤
      list.padding.top + (list.layout state.overdraw).top shownTo := by
    have atEnd : shownTo = (S.items state.items).length →
        state.renderedEnd (list.layout state.overdraw) list.padding ≤
          list.padding.top + (list.layout state.overdraw).top shownTo := by
      intro all
      rw [renderedEnd, ← all]
      linarith
    rw [prepaintTop]
    rcases le_or_gt (state.anchorTop (list.layout state.overdraw))
      (state.renderedEnd (list.layout state.overdraw) list.padding) with fills | behind
    · rw [ListAlignment.settle_of_le fills]
      rcases settled.reaches with all | reaches
      · exact fills.trans (atEnd all)
      · linarith
    · have all : shownTo = (S.items state.items).length := by
        rcases settled.reaches with all | reaches
        · exact all
        · exact absurd reaches (not_le.mpr (renderable.above_of_behind behind settled.bound.2))
      cases state.alignment with
      | top =>
          rw [ListAlignment.settle_top behind]
          exact max_le (atEnd all) (by linarith)
      | bottom =>
          rw [ListAlignment.settle_bottom behind]
          exact atEnd all
  rw [drawnAt]
  dsimp only
  linarith

end Behind

/-- Where the list is laid out again. -/
theorem positionOf_retry [IsStrictOrderedRing K]
    (renderable : state.Renderable (list.layout state.overdraw) list.padding)
    {anchor : ListOffset K} (bound : anchor.itemIx ≤ (S.items state.items).length) :
    state.positionOf list ({ (state.laidOutIn list).2 with
        logicalScrollTop? := some anchor }.laidOutIn list).1.scrollTop =
      state.prepaintTop list (state.positionOf list anchor) := by
  have again := renderable.laidOut bound
  rcases again.2.layoutItems with ⟨shownTo, trailing, settled, _⟩
  have position := settled.position
  rw [renderedEnd, again.1] at position
  exact position

theorem rowsInside_prepaintTop [IsStrictOrderedRing K]
    (renderable : state.Renderable (list.layout state.overdraw) list.padding)
    {index : Nat} {request : Bounds K} (inList : index < (S.items state.items).length)
    (inside : request.origin.y + request.size.height ≤ (list.renderItem index).2.height)
    {position : K} (nonneg : 0 ≤ position)
    (fromTop : position ≤
      list.padding.top + (list.layout state.overdraw).top index + request.origin.y)
    (toBottom : list.padding.top + (list.layout state.overdraw).top index + request.origin.y +
      request.size.height ≤ position + list.bounds.size.height) :
    state.RowsInside list (state.prepaintTop list position) index request := by
  have next := (list.layout state.overdraw).top_succ index
  have ends := ListLayout.top_mono renderable.rendered inList
  have bottom := renderable.padding.2
  have settled : state.prepaintTop list position ≤
        list.padding.top + (list.layout state.overdraw).top index + request.origin.y ∧
      list.padding.top + (list.layout state.overdraw).top index + request.origin.y +
        request.size.height ≤ state.prepaintTop list position + list.bounds.size.height := by
    apply ListAlignment.settle_inside nonneg fromTop toBottom
    rw [renderedEnd]
    change (list.layout state.overdraw).top (index + 1) =
      (list.layout state.overdraw).top index + (list.renderItem index).2.height at next
    change _ ≤ _ - list.bounds.size.height + list.bounds.size.height
    rw [Nat.succ_eq_add_one] at ends
    linarith
  constructor
  · linarith
  · linarith

/-! ## Requests are revealed -/

section Reveal

variable [IsStrictOrderedRing K] {index : Nat} {request : Bounds K}

/-- A list that is laid out keeps the heights of its items. -/
theorem Renderable.sameHeights_next
    (renderable : state.Renderable (list.layout state.overdraw) list.padding)
    {response : LayoutItemsResponse E K} {next : ListState S}
    (laidOut : state.laidOutIn list = (response, next)) :
    next.overdraw = state.overdraw ∧
      (S.items next.items).length = (S.items state.items).length ∧
      (list.layout next.overdraw).SameHeights (S.items next.items) := by
  have again := renderable.laidOut (show (⟨0, 0⟩ : ListOffset K).itemIx ≤ _ from Nat.zero_le _)
  have isNext : (state.laidOutIn list).2 = next := congrArg Prod.snd laidOut
  rw [← isNext]
  exact ⟨rfl, again.1, again.2.same⟩

/-- The bounds are inside from where their item starts or from where they end above the padding. -/
theorem rowsInside_requestTop
    (renderable : state.Renderable (list.layout state.overdraw) list.padding)
    {original : ListState S} (requested : original.Requested list index request)
    (inList : index < (S.items state.items).length) :
    state.RowsInside list (state.prepaintTop list (state.requestTop list index request)) index
      request := by
  have fromTop := renderable.padding.1
  have fromBottom := renderable.padding.2
  have fits := requested.fits
  have inside := requested.inside
  have nonneg := ListLayout.top_mono renderable.rendered (Nat.zero_le index)
  rw [ListLayout.top_zero] at nonneg
  have ends := le_max_right 0 ((list.layout state.overdraw).top index + request.origin.y +
    request.size.height + list.padding.top + list.padding.bottom - list.bounds.size.height)
  apply rowsInside_prepaintTop renderable inList inside.2.2 (le_max_left _ _)
  · apply max_le
    · linarith
    · linarith
  · linarith

theorem rowsInside_requestStart
    (renderable : state.Renderable (list.layout state.overdraw) list.padding)
    {original : ListState S} (requested : original.Requested list index request)
    (inList : index < (S.items state.items).length) :
    state.RowsInside list (state.prepaintTop list
      ((list.layout state.overdraw).top index + request.origin.y)) index request := by
  have fromTop := renderable.padding.1
  have fromBottom := renderable.padding.2
  have fits := requested.fits
  have inside := requested.inside
  have nonneg := ListLayout.top_mono renderable.rendered (Nat.zero_le index)
  rw [ListLayout.top_zero] at nonneg
  apply rowsInside_prepaintTop renderable inList inside.2.2
  · linarith
  · linarith
  · linarith

/-- The anchor that is honoured, if any, and what is expected of it. -/
theorem revealedInPlace_iff
    (renderable : state.Renderable (list.layout state.overdraw) list.padding)
    {original : ListState S} (requested : original.Requested list index request)
    {response : LayoutItemsResponse E K} {next : ListState S}
    (laidOut : state.laidOutIn list = (response, next))
    (isRendered : index ∈ response.itemLayouts.map ItemLayout.index)
    (only : ∀ itemLayout ∈ response.itemLayouts, list.autoscroll itemLayout.element =
      if itemLayout.index = index then some request else none) :
    let position := state.prepaintTop list (state.anchorTop (list.layout state.overdraw))
    let honoured := next.prepaintLayouts list true
      ⟨list.bounds.origin.x,
        list.bounds.origin.y + list.padding.top - response.scrollTop.offsetInItem⟩
      response.itemLayouts
    state.positionOf list response.scrollTop = position ∧
      (honoured = none ∧ (state.RowsInside list position index request ↔
          state.RevealedInPlace list index request) ∨
        ∃ anchor, honoured = some anchor ∧ anchor.itemIx ≤ (S.items state.items).length ∧
          (state.RowsInside list (state.prepaintTop list (state.positionOf list anchor)) index
              request ∧
            (state.RowsInside list position index request →
              state.prepaintTop list (state.positionOf list anchor) = position) ↔
            state.RevealedInPlace list index request)) := by
  have overdraw := renderable.sameHeights_next laidOut
  have isSettled : ∃ shownTo trailing,
      state.Settled (list.layout state.overdraw) list.padding response.scrollTop shownTo ∧
        response.itemLayouts = (list.layout state.overdraw).shown response.scrollTop.itemIx
          shownTo ++ Option.toList trailing ∧
        ∀ found ∈ trailing, found = (list.layout state.overdraw).itemLayout found.index ∧
          found.index < (S.items state.items).length ∧
          ¬ (response.scrollTop.itemIx ≤ found.index ∧ found.index < shownTo) := by
    have isResponse : (state.laidOutIn list).1 = response := congrArg Prod.fst laidOut
    rw [← isResponse]
    exact renderable.layoutItems
  rcases isSettled with ⟨shownTo, trailing, settled, layouts, isTrailing⟩
  rw [layouts] at isRendered only
  rcases prepaintLayouts_requested next settled isTrailing isRendered only with
    ⟨inList, last, place, decided⟩
  rw [← layouts] at decided
  dsimp only
  rw [decided]
  refine ⟨settled.position, ?_⟩
  have inside := requested.inside
  rcases lt_or_ge ((state.drawnAt list last).y + request.origin.y) list.bounds.origin.y with
    above | notAbove
  · -- an item behind the visible ones is never above the view
    right
    refine ⟨_, autoscrollTo_above above, inList.le, ?_⟩
    have revealed := rowsInside_requestStart renderable requested inList
    rcases place with ⟨shown, rfl⟩ | ⟨_, rfl⟩
    · constructor
      · intro _
        exact Or.inl shown
      · intro _
        refine ⟨revealed, fun inView => ?_⟩
        exact absurd inView.1 (not_le.mpr above)
    · have behind := settled.drawnAt_behind renderable requested.prepainted
      exact absurd above (not_lt.mpr (by linarith))
  · rcases le_or_gt ((state.drawnAt list last).y + request.origin.y + request.size.height)
      (list.bounds.origin.y + list.bounds.size.height) with notBelow | below
    · left
      refine ⟨autoscrollTo_inside notAbove notBelow, ?_⟩
      rcases place with ⟨shown, rfl⟩ | ⟨notShown, rfl⟩
      · constructor
        · intro _
          exact Or.inl shown
        · intro _
          exact ⟨notAbove, notBelow⟩
      · have taken := (settled.takenForVisible_iff renderable).mpr notBelow
        constructor
        · intro inView
          exact Or.inr ⟨fun _ => inView, fun notTaken => absurd taken notTaken⟩
        · rintro (shown | ⟨inView, _⟩)
          · exact absurd shown notShown
          · exact inView taken
    · right
      have bound : index ≤ (S.items next.items).length := overdraw.2.1 ▸ inList.le
      rcases autoscrollTo_below overdraw.2.2 renderable.rendered bound notAbove below with
        ⟨anchor, isAnchor, less, position⟩
      have samePosition : state.positionOf list anchor = state.requestTop list index request := by
        rw [positionOf, requestTop, ← overdraw.1]
        exact position
      have revealed := rowsInside_requestTop renderable requested inList
      refine ⟨anchor, isAnchor, less.trans inList.le, ?_⟩
      rw [samePosition]
      rcases place with ⟨shown, rfl⟩ | ⟨notShown, rfl⟩
      · constructor
        · intro _
          exact Or.inl shown
        · intro _
          refine ⟨revealed, fun inView => ?_⟩
          exact absurd inView.2 (not_le.mpr below)
      · have notTaken := mt (settled.takenForVisible_iff renderable).mp (not_le.mpr below)
        constructor
        · rintro ⟨_, stays⟩
          exact Or.inr ⟨fun taken => absurd taken notTaken, fun _ => stays⟩
        · rintro (shown | ⟨_, stays⟩)
          · exact absurd shown notShown
          · exact ⟨revealed, stays notTaken⟩

omit [IsStrictOrderedRing K] in
theorem SameView.revealedInPlace_iff {next : ListState S} (view : SameView state next) :
    next.RevealedInPlace list index request ↔ state.RevealedInPlace list index request := by
  simp only [RevealedInPlace, ShownInPlace, TakenForVisible, RowsInside, prepaintTop, requestTop,
    renderedEnd, anchorTop, view.overdraw, view.alignment, view.length, view.scrollTop]

omit [IsStrictOrderedRing K] in
theorem firstRequest_withoutAutoscroll (state : ListState S) (list : ListPrepaint E F K) :
    state.firstRequest list.withoutAutoscroll = none :=
  prepaintLayouts_silent _ _ fun _ _ => rfl

omit [IsStrictOrderedRing K] in
theorem revealsRequest_iff_of_prepaint {response still : LayoutItemsResponse E K}
    {next stillNext : ListState S} (isPrepaint : state.prepaint list = some (response, next))
    (isStill : state.prepaint list.withoutAutoscroll = some (still, stillNext)) :
    state.RevealsRequest list index request ↔
      state.RowsInside list (state.positionOf list response.scrollTop) index request ∧
        (state.RowsInside list (state.positionOf list still.scrollTop) index request →
          state.positionOf list response.scrollTop = state.positionOf list still.scrollTop) := by
  constructor
  · rintro ⟨shown, shownNext, other, otherNext, isShown, isOther, inView, stays⟩
    have same := congrArg Prod.fst (Option.some.inj (isShown.symm.trans isPrepaint))
    have sameStill := congrArg Prod.fst (Option.some.inj (isOther.symm.trans isStill))
    dsimp only at same sameStill
    rw [same] at inView stays
    rw [sameStill] at stays
    exact ⟨inView, stays⟩
  · rintro ⟨inView, stays⟩
    exact ⟨response, next, still, stillNext, isPrepaint, isStill, inView, stays⟩

/-- A request is revealed as expected exactly if its item is at its place, or is not taken for
visible by mistake. -/
theorem revealsRequest_iff (prepaintable : state.Prepaintable list)
    (requested : state.Requested list index request) :
    state.RevealsRequest list index request ↔ state.RevealedInPlace list index request := by
  have view := sameView_prepared state list
  have renderable := prepaintable.renderable
  rw [← view.overdraw] at renderable
  have samePosition : ∀ scrollTop : ListOffset K,
      state.positionOf list scrollTop = (state.prepared list).positionOf list scrollTop := by
    intro scrollTop
    rw [positionOf, positionOf, view.overdraw]
  have sameRows : ∀ position : K, state.RowsInside list position index request ↔
      (state.prepared list).RowsInside list position index request := by
    intro position
    rw [RowsInside, RowsInside, view.overdraw]
  rcases isLaidOut : (state.prepared list).laidOutIn list with ⟨response, next⟩
  have isStill : ∃ stillNext,
      state.prepaint list.withoutAutoscroll = some (response, stillNext) := by
    have still : ∃ stillNext, state.prepaint list.withoutAutoscroll =
        some (((state.prepared list.withoutAutoscroll).laidOutIn list.withoutAutoscroll).1,
          stillNext) :=
      prepaint_eq_of_none requested.prepainted (state.firstRequest_withoutAutoscroll list)
    have same : (state.prepared list.withoutAutoscroll).laidOutIn list.withoutAutoscroll =
      (response, next) := isLaidOut
    rw [same] at still
    exact still
  rcases isStill with ⟨stillNext, isStill⟩
  rcases requested.only with ⟨asked, askedNext, isAsked, isRendered, only⟩
  have isResponse : asked = response :=
    congrArg Prod.fst (Option.some.inj (isAsked.symm.trans isStill))
  rw [isResponse] at isRendered only
  have isHonoured : state.firstRequest list = next.prepaintLayouts list true
      ⟨list.bounds.origin.x,
        list.bounds.origin.y + list.padding.top - response.scrollTop.offsetInItem⟩
      response.itemLayouts := by
    rw [firstRequest, isLaidOut]
  rcases revealedInPlace_iff renderable requested isLaidOut isRendered only with
    ⟨position, ⟨ignored, revealed⟩ | ⟨anchor, honoured, bound, revealed⟩⟩
  · rcases prepaint_eq_of_none requested.prepainted (isHonoured.trans ignored) with
      ⟨last, isPrepaint⟩
    rw [isLaidOut] at isPrepaint
    rw [revealsRequest_iff_of_prepaint isPrepaint isStill, ← view.revealedInPlace_iff, ← revealed,
      ← position, ← samePosition, ← sameRows]
    constructor
    · exact And.left
    · intro inView
      exact ⟨inView, fun _ => rfl⟩
  · rcases prepaint_eq_of_some requested.prepainted (isHonoured.trans honoured) with
      ⟨last, isPrepaint⟩
    rw [revealsRequest_iff_of_prepaint isPrepaint isStill, ← view.revealedInPlace_iff, ← revealed,
      ← position, ← positionOf_retry renderable bound, ← sameRows, ← sameRows, ← samePosition,
      ← samePosition]

end Reveal

/-- Ten items, of which the first has the focus, in a view of the height of four with a padding
below the items of the height of two.  The view starts at the ninth. -/
def focusedFirst : ListState lists :=
  { new lists 0 .top 0 with
    items := .measured ⟨50, 10⟩ (some ()) :: List.replicate 9 (.measured ⟨50, 10⟩ none)
    lastLayoutBounds := some ⟨⟨0, 0⟩, ⟨50, 40⟩⟩
    logicalScrollTop? := some ⟨8, 0⟩ }

/-- The first item requests to be scrolled to. -/
def requestFirst : ListPrepaint Nat Unit ℚ where
  bounds := ⟨⟨0, 0⟩, ⟨50, 40⟩⟩
  padding := ⟨0, 0, 20, 0⟩
  renderItem index := (index, ⟨50, 10⟩)
  containsFocused _ := true
  autoscroll index := if index = 0 then some ⟨⟨0, 0⟩, ⟨50, 10⟩⟩ else none

example : (lists.items focusedFirst.items).length = 10 := by
  decide +kernel

theorem focusedFirst_prepaintable : focusedFirst.Prepaintable requestFirst := by
  have sizes : ∀ item ∈ lists.items focusedFirst.items, ∀ size ∈ item.size, size.height = 10 := by
    decide +kernel
  constructor
  · constructor
    · intro anchor isAnchor
      rw [← Option.some.inj isAnchor]
      decide
    · unfold ListItem.Heights
      decide +kernel
  · intro _ index item here
    exact sizes item (List.mem_of_getElem? here)
  · intro _
    exact Nat.ofNat_nonneg 10
  · exact ⟨le_rfl, Nat.ofNat_nonneg 20⟩
  · exact le_rfl

theorem focusedFirst_requested :
    focusedFirst.Requested requestFirst 0 ⟨⟨0, 0⟩, ⟨50, 10⟩⟩ := by
  have isRendered : (focusedFirst.prepaint requestFirst.withoutAutoscroll).map
      (fun result => result.1.itemLayouts) =
        some [⟨8, 8, ⟨50, 10⟩⟩, ⟨9, 9, ⟨50, 10⟩⟩, ⟨0, 0, ⟨50, 10⟩⟩] := by
    decide +kernel
  rcases Option.map_eq_some_iff.mp isRendered with ⟨⟨response, next⟩, isPrepaint, layouts⟩
  constructor
  · decide +kernel
  · refine ⟨response, next, isPrepaint, ?_⟩
    dsimp only at layouts
    rw [layouts]
    decide +kernel
  · decide +kernel
  · decide +kernel

theorem revealsRequest_iff_focusedFirst :
    focusedFirst.RevealsRequest requestFirst 0 ⟨⟨0, 0⟩, ⟨50, 10⟩⟩ ↔
      focusedFirst.RevealedInPlace requestFirst 0 ⟨⟨0, 0⟩, ⟨50, 10⟩⟩ :=
  revealsRequest_iff focusedFirst_prepaintable focusedFirst_requested

/-- Behind the last items the first one is taken for visible, and the view stays where it is. -/
theorem not_revealsRequest :
    focusedFirst.Requested requestFirst 0 ⟨⟨0, 0⟩, ⟨50, 10⟩⟩ ∧
      ¬ focusedFirst.RevealsRequest requestFirst 0 ⟨⟨0, 0⟩, ⟨50, 10⟩⟩ := by
  refine ⟨focusedFirst_requested, ?_⟩
  have isPrepaint : (focusedFirst.prepaint requestFirst).map
    (fun result => focusedFirst.positionOf requestFirst result.1.scrollTop) = some 80 := by
    decide +kernel
  rintro ⟨response, next, still, stillNext, isShown, _, inside, _⟩
  rw [isShown] at isPrepaint
  have position : focusedFirst.positionOf requestFirst response.scrollTop = 80 :=
    Option.some.inj isPrepaint
  rw [position] at inside
  exact absurd inside.1 (by decide +kernel)

example : requestFirst.bounds.size.height = 40 := by
  decide +kernel

end ListState

end Gpui
