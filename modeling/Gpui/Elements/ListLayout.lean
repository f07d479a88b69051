import Gpui.Elements.ListScroll

/-!
# Laying out a list

The items in view are rendered and measured, from the anchor on and, where these do not fill
the view, before it.  The overdraw, in front of the view and behind it, is measured as well.
-/

namespace Gpui

open Library ListItemSummary

variable {E F K : Type} [Field K] [LinearOrder K]

structure ItemLayout (E K : Type) where
  index : Nat
  element : E
  size : Size K
deriving DecidableEq

structure LayoutItemsResponse (E K : Type) where
  maxItemWidth : K
  scrollTop : ListOffset K
  itemLayouts : List (ItemLayout E K)
deriving DecidableEq

omit [Field K] [LinearOrder K] in
def ListItem.containsFocused (containsFocused : F → Bool) (self : ListItem F K) : Bool :=
  self.focusHandle.any containsFocused

/-- What the loops of `layout_items` carry along. -/
structure LayoutProgress (E F K : Type) where
  measuredItems : List (ListItem F K)
  itemLayouts : List (ItemLayout E K)
  renderedHeight : K
  maxItemWidth : K
  renderedFocusedItem : Bool

/-- What is on screen: the cursor at its first item, what has been rendered and measured, and
where the view starts, also as the anchor that is kept. -/
structure RenderedView (S : ListItems F K) (E : Type) where
  cursor : S.Cursor
  progress : LayoutProgress E F K
  scrollTop : ListOffset K
  logicalScrollTop? : Option (ListOffset K)

/-- What is given for a list to be laid out in: the available height, the overdraw, the element
that an item is rendered to, with its size in the available space, and whether a focus handle
contains the focus. -/
structure ListLayout (E F K : Type) where
  availableHeight : K
  overdraw : K
  renderItem : Nat → E × Size K
  containsFocused : F → Bool

namespace ListLayout

variable (layout : ListLayout E F K)

/-- Render items from the scroll top on, including those in the trailing overdraw. -/
def renderForward (offsetInItem : K) :
    Nat → List (ListItem F K) → LayoutProgress E F K → LayoutProgress E F K
  | _, [], progress => progress
  | itemIndex, item :: items, progress =>
      let visibleHeight := progress.renderedHeight - offsetInItem
      if visibleHeight ≥ layout.availableHeight + layout.overdraw then progress
      else
        let (element, elementSize) := layout.renderItem itemIndex
        -- a size that is cached is used only for items out of view
        let size :=
          if visibleHeight < layout.availableHeight then elementSize
          else item.size.getD elementSize
        let progress :=
          if visibleHeight < layout.availableHeight then
            { progress with
              itemLayouts := progress.itemLayouts ++ [⟨itemIndex, element, elementSize⟩]
              renderedFocusedItem :=
                progress.renderedFocusedItem || item.containsFocused layout.containsFocused }
          else progress
        renderForward offsetInItem (itemIndex + 1) items
          { progress with
            renderedHeight := progress.renderedHeight + size.height
            maxItemWidth := max progress.maxItemWidth size.width
            measuredItems := progress.measuredItems ++ [.measured size item.focusHandle] }

variable {S : ListItems F K}

omit [LinearOrder K] in
theorem length_passed_prev_lt {cursor : S.Cursor} {item : ListItem F K}
    (here : S.item (S.prev cursor) = some item) :
    (S.passed (S.prev cursor)).length < (S.passed cursor).length := by
  rcases List.eq_nil_or_concat (S.passed cursor) with none | ⟨front, last, split⟩
  · rw [S.item_eq, (S.around_prev_first none).2] at here
    cases here
  · rw [List.concat_eq_append] at split
    rw [(S.around_prev split).1, split, List.length_append]
    exact Nat.lt_succ_self _

/-- Walk upward while the rendered items do not fill the visible region. -/
def fillUpward (cursor : S.Cursor) (progress : LayoutProgress E F K) :
    S.Cursor × LayoutProgress E F K :=
  if progress.renderedHeight < layout.availableHeight then
    match _here : S.item (S.prev cursor) with
    | some item =>
        let itemIndex := (S.start (S.prev cursor)).count
        let (element, elementSize) := layout.renderItem itemIndex
        fillUpward (S.prev cursor)
          { progress with
            renderedHeight := progress.renderedHeight + elementSize.height
            measuredItems := .measured elementSize item.focusHandle :: progress.measuredItems
            itemLayouts := ⟨itemIndex, element, elementSize⟩ :: progress.itemLayouts
            renderedFocusedItem :=
              progress.renderedFocusedItem || item.containsFocused layout.containsFocused }
    | none => (S.prev cursor, progress)
  else (cursor, progress)
termination_by (S.passed cursor).length
decreasing_by exact length_passed_prev_lt _here

/-- Measure items in the leading overdraw. -/
def measureOverdraw (cursor : S.Cursor) (leadingOverdraw : K)
    (measuredItems : List (ListItem F K)) : S.Cursor × List (ListItem F K) :=
  if leadingOverdraw < layout.overdraw then
    match _here : S.item (S.prev cursor) with
    | some item =>
        let size := item.size.getD (layout.renderItem (S.start (S.prev cursor)).count).2
        measureOverdraw (S.prev cursor) (leadingOverdraw + size.height)
          (.measured size item.focusHandle :: measuredItems)
    | none => (S.prev cursor, measuredItems)
  else (cursor, measuredItems)
termination_by (S.passed cursor).length
decreasing_by exact length_passed_prev_lt _here

/-- The first item out of view that contains the focus, to be rendered as well. -/
def focusedItem (items : S.Tree) : Option (ItemLayout E K) :=
  ((S.filter (fun summary => summary.hasFocusHandles) items).find? fun found =>
      found.2.containsFocused layout.containsFocused).map fun found =>
    let itemIndex := found.1.count
    let (element, elementSize) := layout.renderItem itemIndex
    ⟨itemIndex, element, elementSize⟩

end ListLayout

namespace ListState

variable {S : ListItems F K}

/-- The items with a range of them replaced by measured ones. -/
def replaceMeasured (oldItems : S.Tree) (start : Nat) (measuredItems : List (ListItem F K)) :
    S.Tree :=
  let newItems := S.slice (atCount start) .right (S.cursor oldItems)
  let newItems := S.append newItems (S.fromIter measuredItems)
  let cursor := S.seek (atCount (start + measuredItems.length)) .right oldItems
  S.append newItems (S.suffix cursor)

/-- Render the items of the view, and measure those in the trailing overdraw. -/
def renderVisible (self : ListState S) (layout : ListLayout E F K) (padding : Edges K) :
    RenderedView S E :=
  let scrollTop := self.logicalScrollTop
  let cursor := S.seek (atCount scrollTop.itemIx) .right self.items
  let progress := layout.renderForward scrollTop.offsetInItem scrollTop.itemIx
    (S.remaining cursor) ⟨[], [], padding.top, 0, false⟩
  let progress := { progress with renderedHeight := progress.renderedHeight + padding.bottom }
  if progress.renderedHeight - scrollTop.offsetInItem < layout.availableHeight then
    -- the rendered items do not fill the visible region
    let (cursor, progress) := layout.fillUpward cursor progress
    let scrollTop : ListOffset K :=
      { itemIx := (S.start cursor).count
        offsetInItem := progress.renderedHeight - layout.availableHeight }
    match self.alignment with
    | .top =>
        let scrollTop := { scrollTop with offsetInItem := max scrollTop.offsetInItem 0 }
        ⟨cursor, progress, scrollTop, some scrollTop⟩
    | .bottom => ⟨cursor, progress, scrollTop, none⟩
  else ⟨cursor, progress, scrollTop, self.logicalScrollTop?⟩

/-- `layout_items`, with the overdraw of the list. -/
def layoutItems (self : ListState S) (availableHeight : K) (padding : Edges K)
    (renderItem : Nat → E × Size K) (containsFocused : F → Bool) :
    LayoutItemsResponse E K × ListState S :=
  let layout : ListLayout E F K := ⟨availableHeight, self.overdraw, renderItem, containsFocused⟩
  let ⟨cursor, progress, scrollTop, logicalScrollTop?⟩ := self.renderVisible layout padding
  let (cursor, measuredItems) :=
    layout.measureOverdraw cursor scrollTop.offsetInItem progress.measuredItems
  let items := replaceMeasured self.items (S.start cursor).count measuredItems
  let itemLayouts :=
    if progress.renderedFocusedItem then progress.itemLayouts
    else progress.itemLayouts ++ (layout.focusedItem items).toList
  (⟨progress.maxItemWidth, scrollTop, itemLayouts⟩, { self with items, logicalScrollTop? })

end ListState

/-! ## The items that are measured -/

namespace ListLayout

variable (layout : ListLayout E F K)

omit [Field K] [LinearOrder K] in
def itemLayout (index : Nat) : ItemLayout E K :=
  ⟨index, (layout.renderItem index).1, (layout.renderItem index).2⟩

omit [Field K] [LinearOrder K] in
/-- The elements of consecutive items. -/
def shown (shownFrom shownTo : Nat) : List (ItemLayout E K) :=
  (List.range' shownFrom (shownTo - shownFrom)).map layout.itemLayout

omit [Field K] [LinearOrder K] in
/-- What an item becomes: those on screen get the size that they are rendered with, and the
others keep a size that they have. -/
def measuredItem (shownFrom shownTo index : Nat) (item : ListItem F K) : ListItem F K :=
  .measured
    (if shownFrom ≤ index ∧ index < shownTo then (layout.renderItem index).2
    else item.size.getD (layout.renderItem index).2)
    item.focusHandle

omit [Field K] [LinearOrder K] in
/-- The items from the first on have been measured, and some of them are on screen. -/
structure MeasuredRange (items : List (ListItem F K)) (first shownFrom shownTo : Nat)
    (measuredItems : List (ListItem F K)) : Prop where
  inside : first ≤ shownFrom ∧ shownFrom ≤ shownTo ∧ shownTo ≤ first + measuredItems.length
  bound : first + measuredItems.length ≤ items.length
  measured : ∀ index item, items[index]? = some item → first ≤ index →
    index < first + measuredItems.length →
    measuredItems[index - first]? = some (layout.measuredItem shownFrom shownTo index item)

omit [Field K] [LinearOrder K] in
/-- The elements of the items on screen, and whether one of them may have the focus. -/
structure OnScreen (items : List (ListItem F K)) (shownFrom shownTo : Nat)
    (itemLayouts : List (ItemLayout E K)) (renderedFocusedItem : Bool) : Prop where
  layouts : itemLayouts = layout.shown shownFrom shownTo
  unfocused : renderedFocusedItem = false → ∀ index item, items[index]? = some item →
    shownFrom ≤ index → index < shownTo → item.containsFocused layout.containsFocused = false

variable {layout} {items measuredItems : List (ListItem F K)} {item : ListItem F K}
  {first shownFrom shownTo : Nat} {itemLayouts : List (ItemLayout E K)} {focused : Bool}

omit [Field K] [LinearOrder K] in
/-- One more item comes on screen behind the others. -/
theorem MeasuredRange.pushShown
    (range : layout.MeasuredRange items first shownFrom shownTo measuredItems)
    (atEnd : shownTo = first + measuredItems.length) (here : items[shownTo]? = some item) :
    layout.MeasuredRange items first shownFrom (shownTo + 1)
      (measuredItems ++ [.measured (layout.renderItem shownTo).2 item.focusHandle]) := by
  have bound := (List.getElem?_eq_some_iff.mp here).1
  have inside := range.inside
  constructor
  · rw [List.length_append, List.length_singleton]
    omega
  · rw [List.length_append, List.length_singleton]
    omega
  · intro index other found behind before
    rw [List.length_append, List.length_singleton] at before
    by_cases isLast : index = shownTo
    · subst isLast
      rw [here] at found
      rw [← Option.some.inj found, List.getElem?_append_right (by omega),
        show index - first - measuredItems.length = 0 by omega, measuredItem,
        if_pos ⟨inside.2.1, Nat.lt_succ_self _⟩]
      rfl
    · rw [List.getElem?_append_left (by omega),
        range.measured index other found behind (by omega), measuredItem, measuredItem]
      congr 3
      apply propext
      omega

omit [Field K] [LinearOrder K] in
/-- One more item is measured behind the others, out of view. -/
theorem MeasuredRange.pushOverdraw
    (range : layout.MeasuredRange items first shownFrom shownTo measuredItems)
    (here : items[first + measuredItems.length]? = some item) :
    layout.MeasuredRange items first shownFrom shownTo
      (measuredItems ++ [.measured
        (item.size.getD (layout.renderItem (first + measuredItems.length)).2)
        item.focusHandle]) := by
  have bound := (List.getElem?_eq_some_iff.mp here).1
  have inside := range.inside
  constructor
  · rw [List.length_append, List.length_singleton]
    omega
  · rw [List.length_append, List.length_singleton]
    omega
  · intro index other found behind before
    rw [List.length_append, List.length_singleton] at before
    by_cases isLast : index = first + measuredItems.length
    · subst isLast
      rw [here] at found
      rw [← Option.some.inj found, List.getElem?_append_right (by omega),
        show first + measuredItems.length - first - measuredItems.length = 0 by omega,
        measuredItem, if_neg (by omega)]
      rfl
    · rw [List.getElem?_append_left (by omega),
        range.measured index other found behind (by omega)]

omit [Field K] [LinearOrder K] in
/-- One more item is measured before the others. -/
theorem MeasuredRange.pushFront
    (range : layout.MeasuredRange items (first + 1) shownFrom shownTo measuredItems)
    (here : items[first]? = some item) {from_ : Nat} (ordered : first ≤ from_)
    (shown : from_ ≤ shownFrom ∧ shownFrom ≤ max (first + 1) from_) :
    layout.MeasuredRange items first from_ shownTo
      (layout.measuredItem from_ shownTo first item :: measuredItems) := by
  have inside := range.inside
  have bound := range.bound
  constructor
  · rw [List.length_cons]
    omega
  · rw [List.length_cons]
    omega
  · intro index other found behind before
    rw [List.length_cons] at before
    by_cases isFirst : index = first
    · subst isFirst
      rw [here] at found
      rw [← Option.some.inj found, Nat.sub_self]
      rfl
    · rw [show index - first = index - (first + 1) + 1 by omega, List.getElem?_cons_succ,
        range.measured index other found (by omega) (by omega), measuredItem, measuredItem]
      congr 3
      apply propext
      omega

omit [Field K] [LinearOrder K] in
theorem OnScreen.push (onScreen : layout.OnScreen items shownFrom shownTo itemLayouts focused)
    (ordered : shownFrom ≤ shownTo) (here : items[shownTo]? = some item) :
    layout.OnScreen items shownFrom (shownTo + 1)
      (itemLayouts ++ [layout.itemLayout shownTo])
      (focused || item.containsFocused layout.containsFocused) := by
  constructor
  · rw [onScreen.layouts, shown, shown, Nat.succ_sub ordered, Nat.succ_eq_add_one, List.range'_concat,
      List.map_append, List.map_singleton, Nat.one_mul, Nat.add_sub_cancel' ordered]
  · intro unfocused index other found behind before
    rw [Bool.or_eq_false_iff] at unfocused
    by_cases isLast : index = shownTo
    · rw [isLast, here] at found
      rw [← Option.some.inj found]
      exact unfocused.2
    · exact onScreen.unfocused unfocused.1 index other found behind (by omega)

omit [Field K] [LinearOrder K] in
theorem OnScreen.pushFront
    (onScreen : layout.OnScreen items (first + 1) shownTo itemLayouts focused)
    (ordered : first + 1 ≤ shownTo) (here : items[first]? = some item) :
    layout.OnScreen items first shownTo (layout.itemLayout first :: itemLayouts)
      (focused || item.containsFocused layout.containsFocused) := by
  constructor
  · rw [onScreen.layouts, shown, shown, show shownTo - first = shownTo - (first + 1) + 1 by omega,
      List.range'_succ, List.map_cons]
  · intro unfocused index other found behind before
    rw [Bool.or_eq_false_iff] at unfocused
    by_cases isFirst : index = first
    · rw [isFirst, here] at found
      rw [← Option.some.inj found]
      exact unfocused.2
    · exact onScreen.unfocused unfocused.1 index other found (by omega) before

/-! ## The loops -/

/-- The height of the elements on screen. -/
def shownHeight (itemLayouts : List (ItemLayout E K)) : K :=
  (itemLayouts.map fun itemLayout => itemLayout.size.height).sum

/-- The height of measured items. -/
def measuredHeight (measuredItems : List (ListItem F K)) : K :=
  (measuredItems.map ListItem.height).sum

/-- The heights of all items, once they are measured. -/
def heights (layout : ListLayout E F K) (items : List (ListItem F K)) : List K :=
  items.mapIdx fun index item => (item.size.getD (layout.renderItem index).2).height

/-- No height is negative. -/
structure Nonneg (layout : ListLayout E F K) (items : List (ListItem F K)) : Prop where
  cached : ListItem.Heights items
  rendered : ∀ index, 0 ≤ (layout.renderItem index).2.height

omit [LinearOrder K] in
theorem measuredHeight_append (front back : List (ListItem F K)) :
    measuredHeight (front ++ back) = measuredHeight front + measuredHeight back := by
  rw [measuredHeight, List.map_append, List.sum_append]
  rfl

omit [LinearOrder K] in
theorem measuredHeight_singleton (item : ListItem F K) : measuredHeight [item] = item.height := by
  rw [measuredHeight, List.map_singleton, List.sum_singleton]

omit [LinearOrder K] in
theorem measuredHeight_cons (item : ListItem F K) (measuredItems : List (ListItem F K)) :
    measuredHeight (item :: measuredItems) = item.height + measuredHeight measuredItems := by
  rw [measuredHeight, List.map_cons, List.sum_cons]
  rfl

omit [LinearOrder K] in
theorem shownHeight_cons (itemLayout : ItemLayout E K) (itemLayouts : List (ItemLayout E K)) :
    shownHeight (itemLayout :: itemLayouts) =
      itemLayout.size.height + shownHeight itemLayouts := by
  rw [shownHeight, List.map_cons, List.sum_cons]
  rfl

/-- An item that is measured has no negative height. -/
theorem Nonneg.size_height (nonneg : layout.Nonneg items) {index : Nat}
    (here : items[index]? = some item) :
    0 ≤ (item.size.getD (layout.renderItem index).2).height := by
  have cached := nonneg.cached item (List.mem_of_getElem? here)
  cases item with
  | unmeasured focusHandle => exact nonneg.rendered index
  | measured size focusHandle => exact cached

/-- What the items measured so far show: all of them are on screen, or those that are reach the
bottom of the view. -/
def Fills (layout : ListLayout E F K) (top : K) (first shownTo : Nat)
    (measuredItems : List (ListItem F K)) (itemLayouts : List (ItemLayout E K)) : Prop :=
  shownTo = first + measuredItems.length ∧
      measuredHeight measuredItems = shownHeight itemLayouts ∨
    layout.availableHeight ≤ top + shownHeight itemLayouts ∧
      shownHeight itemLayouts ≤ measuredHeight measuredItems

theorem Fills.shown_le {top : K}
    (fills : layout.Fills top first shownTo measuredItems itemLayouts) :
    shownHeight itemLayouts ≤ measuredHeight measuredItems := by
  rcases fills with ⟨_, same⟩ | ⟨_, less⟩
  · exact same.ge
  · exact less

theorem measuredItem_height (nonneg : layout.Nonneg items) {index : Nat}
    (here : items[index]? = some item) :
    0 ≤ (layout.measuredItem shownFrom shownTo index item).height := by
  rw [measuredItem, ListItem.height]
  split_ifs
  · exact nonneg.rendered index
  · exact nonneg.size_height here

variable {S : ListItems F K} [IsStrictOrderedRing K]

theorem renderForward_spec (nonneg : layout.Nonneg items) {base offsetInItem : K}
    {index : Nat} {rest : List (ListItem F K)} {progress : LayoutProgress E F K}
    (isRest : rest = items.drop index) (isIndex : index = first + progress.measuredItems.length)
    (range : layout.MeasuredRange items first first shownTo progress.measuredItems)
    (onScreen : layout.OnScreen items first shownTo progress.itemLayouts
      progress.renderedFocusedItem)
    (height : progress.renderedHeight = base + measuredHeight progress.measuredItems)
    (fills : layout.Fills (base - offsetInItem) first shownTo progress.measuredItems
      progress.itemLayouts) :
    let result := layout.renderForward offsetInItem index rest progress
    ∃ shownTo, layout.MeasuredRange items first first shownTo result.measuredItems ∧
      layout.OnScreen items first shownTo result.itemLayouts result.renderedFocusedItem ∧
      result.renderedHeight = base + measuredHeight result.measuredItems ∧
      layout.Fills (base - offsetInItem) first shownTo result.measuredItems result.itemLayouts ∧
      (first + result.measuredItems.length = items.length ∨
        layout.availableHeight + layout.overdraw ≤ result.renderedHeight - offsetInItem) := by
  induction rest generalizing index progress shownTo with
  | nil =>
      have bound := range.bound
      have atEnd : items.length ≤ index := List.drop_eq_nil_iff.mp isRest.symm
      exact ⟨shownTo, range, onScreen, height, fills, Or.inl (by
        rw [renderForward]
        omega)⟩
  | cons item rest ih =>
      have here : items[index]? = some item := by
        rw [← List.head?_drop, ← isRest]
        rfl
      have isRestNext : rest = items.drop (index + 1) := by
        rw [← List.tail_drop, ← isRest]
        rfl
      dsimp only
      rw [renderForward]
      dsimp only
      by_cases done : progress.renderedHeight - offsetInItem ≥
          layout.availableHeight + layout.overdraw
      · rw [if_pos done]
        exact ⟨shownTo, range, onScreen, height, fills, Or.inr done⟩
      · rw [if_neg done]
        by_cases visible : progress.renderedHeight - offsetInItem < layout.availableHeight
        · rw [if_pos visible, if_pos visible]
          dsimp only
          have open_ : shownTo = first + progress.measuredItems.length ∧
              measuredHeight progress.measuredItems = shownHeight progress.itemLayouts := by
            rcases fills with open_ | ⟨full, less⟩
            · exact open_
            · linarith
          rw [isIndex, ← open_.1] at here ⊢
          apply ih
          · rw [isRestNext, isIndex, open_.1]
          · dsimp only
            rw [List.length_append, List.length_singleton]
            omega
          · exact range.pushShown open_.1 here
          · exact onScreen.push range.inside.2.1 here
          · dsimp only
            rw [measuredHeight_append, measuredHeight_singleton, height, add_assoc]
            rfl
          · left
            dsimp only
            rw [List.length_append, List.length_singleton, measuredHeight_append,
              measuredHeight_singleton, open_.2, shownHeight, shownHeight, List.map_append,
              List.sum_append, List.map_singleton, List.sum_singleton]
            exact ⟨by omega, rfl⟩
        · rw [if_neg visible, if_neg visible]
          have full : layout.availableHeight ≤
                base - offsetInItem + shownHeight progress.itemLayouts ∧
              shownHeight progress.itemLayouts ≤ measuredHeight progress.measuredItems := by
            rcases fills with ⟨_, same⟩ | full
            · rw [← same]
              exact ⟨by linarith, le_rfl⟩
            · exact full
          have size := nonneg.size_height here
          rw [isIndex] at here size ⊢
          apply ih
          · rw [isRestNext, isIndex]
          · dsimp only
            rw [List.length_append, List.length_singleton]
            omega
          · exact range.pushOverdraw here
          · exact onScreen
          · dsimp only
            rw [measuredHeight_append, measuredHeight_singleton, height, add_assoc]
            rfl
          · right
            refine ⟨full.1, full.2.trans ?_⟩
            dsimp only
            rw [measuredHeight_append, measuredHeight_singleton]
            exact le_add_of_nonneg_right size

/-- From nothing on, the items that are rendered fill the view up to the overdraw, or there are
no more. -/
theorem renderForward_first (nonneg : layout.Nonneg items) (bound : first ≤ items.length)
    (top offsetInItem : K) :
    let result := layout.renderForward offsetInItem first (items.drop first) ⟨[], [], top, 0, false⟩
    ∃ shownTo, layout.MeasuredRange items first first shownTo result.measuredItems ∧
      layout.OnScreen items first shownTo result.itemLayouts result.renderedFocusedItem ∧
      result.renderedHeight = top + measuredHeight result.measuredItems ∧
      layout.Fills (top - offsetInItem) first shownTo result.measuredItems result.itemLayouts ∧
      (first + result.measuredItems.length = items.length ∨
        layout.availableHeight + layout.overdraw ≤ result.renderedHeight - offsetInItem) := by
  have range : layout.MeasuredRange items first first first [] := by
    constructor
    · exact ⟨le_rfl, le_rfl, le_rfl⟩
    · exact bound
    · intro index item _ behind before
      exact absurd before (not_lt.mpr behind)
  apply renderForward_spec nonneg
  · rfl
  · rfl
  · exact range
  · constructor
    · rw [shown, Nat.sub_self]
      rfl
    · intro _ index item _ behind before
      exact absurd before (not_lt.mpr behind)
  · exact (add_zero top).symm
  · exact Or.inl ⟨rfl, rfl⟩

omit [LinearOrder K] [IsStrictOrderedRing K] in
theorem start_take {cursor : S.Cursor} {n : Nat} (bound : n ≤ items.length)
    (passed : S.passed cursor = items.take n) : (S.start cursor).count = n := by
  rw [SummedSequence.start, passed, sum_count, List.length_take, Nat.min_eq_left bound]

/-- Walking upward brings items on screen, one before the other, until they fill the view or
there are no more. -/
theorem fillUpward_spec (rendered : ∀ index, 0 ≤ (layout.renderItem index).2.height)
    {cursor : S.Cursor} (progress : LayoutProgress E F K) {base extra : K}
    (passed : S.passed cursor = items.take first)
    (range : layout.MeasuredRange items first first shownTo progress.measuredItems)
    (onScreen : layout.OnScreen items first shownTo progress.itemLayouts
      progress.renderedFocusedItem)
    (height : progress.renderedHeight = base + measuredHeight progress.measuredItems)
    (shown : measuredHeight progress.measuredItems =
      shownHeight progress.itemLayouts + extra) :
    let result := layout.fillUpward cursor progress
    ∃ front, S.passed result.1 = items.take front ∧
      shownHeight progress.itemLayouts ≤ shownHeight result.2.itemLayouts ∧
      layout.MeasuredRange items front front shownTo result.2.measuredItems ∧
      layout.OnScreen items front shownTo result.2.itemLayouts result.2.renderedFocusedItem ∧
      result.2.renderedHeight = base + measuredHeight result.2.measuredItems ∧
      measuredHeight result.2.measuredItems = shownHeight result.2.itemLayouts + extra ∧
      (layout.availableHeight ≤ result.2.renderedHeight ∨ front = 0) := by
  have inside := range.inside
  have bound := range.bound
  induction first generalizing cursor progress with
  | zero =>
      have before := S.prev_first passed
      dsimp only
      rw [fillUpward]
      by_cases short : progress.renderedHeight < layout.availableHeight
      · rw [if_pos short]
        split
        · rename_i item here
          rw [before.2] at here
          cases here
        · exact ⟨0, before.1, le_rfl, range, onScreen, height, shown, Or.inr rfl⟩
      · rw [if_neg short]
        exact ⟨0, passed, le_rfl, range, onScreen, height, shown, Or.inl (not_lt.mp short)⟩
  | succ first ih =>
      have before := S.prev_take (by omega) passed
      have start := start_take (by omega) before.1
      dsimp only
      rw [fillUpward]
      by_cases short : progress.renderedHeight < layout.availableHeight
      · rw [if_pos short]
        split
        · rename_i item here
          rw [start]
          dsimp only
          have isItem : items[first]? = some item := by
            rw [← here, before.2]
            exact List.getElem?_eq_getElem _
          have rangeNext := range.pushFront isItem le_rfl (by omega)
          rw [measuredItem, if_pos (by omega)] at rangeNext
          have onScreenNext := onScreen.pushFront (by omega) isItem
          have ends := @ih (S.prev cursor)
            { progress with
              renderedHeight := progress.renderedHeight + (layout.renderItem first).2.height
              measuredItems :=
                .measured (layout.renderItem first).2 item.focusHandle :: progress.measuredItems
              itemLayouts := layout.itemLayout first :: progress.itemLayouts
              renderedFocusedItem :=
                progress.renderedFocusedItem || item.containsFocused layout.containsFocused }
            before.1 rangeNext onScreenNext (by
              dsimp only
              rw [height, measuredHeight_cons, add_comm (ListItem.height _), ← add_assoc]
              rfl) (by
              dsimp only
              rw [measuredHeight_cons, shown, shownHeight_cons, ← add_assoc]
              rfl) rangeNext.inside rangeNext.bound
          rcases ends with ⟨front, passed, more, rest⟩
          refine ⟨front, passed, le_trans ?_ more, rest⟩
          rw [shownHeight_cons]
          exact le_add_of_nonneg_left (rendered first)
        · rename_i none
          rw [before.2] at none
          cases none
      · rw [if_neg short]
        exact ⟨first + 1, passed, le_rfl, range, onScreen, height, shown,
          Or.inl (not_lt.mp short)⟩

omit [IsStrictOrderedRing K] in
/-- Measuring the leading overdraw brings no item on screen. -/
theorem measureOverdraw_spec {cursor : S.Cursor} (leadingOverdraw : K)
    (passed : S.passed cursor = items.take first)
    (range : layout.MeasuredRange items first shownFrom shownTo measuredItems) :
    let result := layout.measureOverdraw cursor leadingOverdraw measuredItems
    ∃ start front, S.passed result.1 = items.take start ∧ start + front.length = first ∧
      result.2 = front ++ measuredItems ∧
      layout.MeasuredRange items start shownFrom shownTo result.2 := by
  have inside := range.inside
  have bound := range.bound
  induction first generalizing cursor leadingOverdraw measuredItems with
  | zero =>
      have before := S.prev_first passed
      dsimp only
      rw [measureOverdraw]
      by_cases short : leadingOverdraw < layout.overdraw
      · rw [if_pos short]
        split
        · rename_i item here
          rw [before.2] at here
          cases here
        · exact ⟨0, [], before.1, rfl, rfl, range⟩
      · rw [if_neg short]
        exact ⟨0, [], passed, rfl, rfl, range⟩
  | succ first ih =>
      have before := S.prev_take (by omega) passed
      have start := start_take (by omega) before.1
      dsimp only
      rw [measureOverdraw]
      by_cases short : leadingOverdraw < layout.overdraw
      · rw [if_pos short]
        split
        · rename_i item here
          rw [start]
          dsimp only
          have isItem : items[first]? = some item := by
            rw [← here, before.2]
            exact List.getElem?_eq_getElem _
          have rangeNext := range.pushFront isItem (by omega) ⟨le_rfl, le_max_right _ _⟩
          rw [measuredItem, if_neg (by omega)] at rangeNext
          rcases ih _ before.1 rangeNext rangeNext.inside rangeNext.bound with
            ⟨start, front, passed, length, split, range⟩
          refine ⟨start, front ++ [.measured (item.size.getD (layout.renderItem first).2)
            item.focusHandle], passed, ?_, ?_, range⟩
          · rw [List.length_append, List.length_singleton]
            omega
          · rw [split, List.append_assoc]
            rfl
        · rename_i none
          rw [before.2] at none
          cases none
      · rw [if_neg short]
        exact ⟨first + 1, [], passed, rfl, rfl, range⟩

omit [LinearOrder K] [IsStrictOrderedRing K] in
/-- The item that is rendered out of view contains the focus. -/
theorem focusedItem_spec {tree : S.Tree} {found : ItemLayout E K}
    (isFound : layout.focusedItem tree = some found) :
    found = layout.itemLayout found.index ∧
      ∃ item, (S.items tree)[found.index]? = some item ∧
        item.containsFocused layout.containsFocused = true := by
  rw [focusedItem, S.filter_eq rfl (fun _ _ => rfl), Option.map_eq_some_iff] at isFound
  rcases isFound with ⟨⟨summary, item⟩, isFirst, rfl⟩
  have focused := List.find?_some isFirst
  have member := List.mem_of_mem_filter (List.mem_of_find?_eq_some isFirst)
  rcases List.mem_mapIdx.mp member with ⟨index, bound, same⟩
  cases same
  rw [sum_count, List.length_take, Nat.min_eq_left bound.le]
  exact ⟨rfl, _, List.getElem?_eq_getElem bound, focused⟩

end ListLayout

/-! ## The list that is left -/

namespace ListState

variable {S : ListItems F K}

omit [LinearOrder K] in
theorem items_replaceMeasured {tree : S.Tree} {start : Nat} {measuredItems : List (ListItem F K)}
    (bound : start + measuredItems.length ≤ (S.items tree).length) :
    S.items (replaceMeasured tree start measuredItems) =
      (S.items tree).take start ++ measuredItems ++
        (S.items tree).drop (start + measuredItems.length) := by
  rw [replaceMeasured, S.items_append, S.items_append, S.items_fromIter, S.items_suffix,
    items_slice_atCount tree (by omega), (around_seek_atCount tree bound).2]

omit [LinearOrder K] in
/-- An item in the range becomes what it is measured to be, and the others stay. -/
theorem getElem?_replaceMeasured {layout : ListLayout E F K} {tree : S.Tree}
    {first shownFrom shownTo : Nat} {measuredItems : List (ListItem F K)}
    (range : layout.MeasuredRange (S.items tree) first shownFrom shownTo measuredItems)
    (index : Nat) :
    (S.items (replaceMeasured tree first measuredItems))[index]? =
      (S.items tree)[index]?.map fun item =>
        if first ≤ index ∧ index < first + measuredItems.length then
          layout.measuredItem shownFrom shownTo index item
        else item := by
  have bound := range.bound
  have front : ((S.items tree).take first).length = first := by
    rw [List.length_take]
    omega
  have both : ((S.items tree).take first ++ measuredItems).length =
      first + measuredItems.length := by
    rw [List.length_append, front]
  rw [items_replaceMeasured bound]
  by_cases before : index < first
  · simp only [show ¬ first ≤ index by omega, false_and, if_false]
    rw [List.getElem?_append_left (by omega), List.getElem?_append_left (by omega),
      List.getElem?_take_of_lt before, Option.map_id']
  · by_cases inside : index < first + measuredItems.length
    · have isItem := List.getElem?_eq_getElem (show index < (S.items tree).length by omega)
      simp only [show first ≤ index by omega, inside, true_and, if_true]
      rw [List.getElem?_append_left (by omega), List.getElem?_append_right (by omega), front,
        range.measured index _ isItem (by omega) inside, isItem]
      rfl
    · simp only [inside, and_false, if_false]
      rw [List.getElem?_append_right (by omega), both, List.getElem?_drop, Option.map_id']
      congr 1
      omega

/-- What holds of the view: it is filled, or the list is too short for it. -/
structure Visible (layout : ListLayout E F K) (padding : Edges K) (state : ListState S)
    (view : RenderedView S E) (shownTo : Nat) : Prop where
  passed : S.passed view.cursor = (S.items state.items).take view.scrollTop.itemIx
  range : layout.MeasuredRange (S.items state.items) view.scrollTop.itemIx view.scrollTop.itemIx
    shownTo view.progress.measuredItems
  onScreen : layout.OnScreen (S.items state.items) view.scrollTop.itemIx shownTo
    view.progress.itemLayouts view.progress.renderedFocusedItem
  reaches : 0 ≤ layout.overdraw →
    0 ≤ padding.bottom ∨ 0 ≤ state.logicalScrollTop.offsetInItem →
    layout.availableHeight ≤ padding.top - view.scrollTop.offsetInItem +
        ListLayout.shownHeight view.progress.itemLayouts ∨
      shownTo = (S.items state.items).length
  noBlank : layout.availableHeight ≤ padding.top - view.scrollTop.offsetInItem +
        ListLayout.measuredHeight view.progress.measuredItems + padding.bottom ∨
      view.scrollTop.itemIx = 0 ∧ view.scrollTop.offsetInItem = 0
  anchor : view.logicalScrollTop? = state.logicalScrollTop? ∨ view.logicalScrollTop? = none ∨
    view.logicalScrollTop? = some view.scrollTop

variable {layout : ListLayout E F K} {padding : Edges K} {state : ListState S}

variable [IsStrictOrderedRing K]

theorem renderVisible_spec (valid : state.Valid)
    (rendered : ∀ index, 0 ≤ (layout.renderItem index).2.height) :
    ∃ shownTo, Visible layout padding state (state.renderVisible layout padding) shownTo := by
  have bound := valid.scrollTop_le
  have around := around_seek_atCount state.items bound
  rcases ListLayout.renderForward_first ⟨valid.heights, rendered⟩ bound padding.top
    state.logicalScrollTop.offsetInItem with ⟨shownTo, range, onScreen, height, fills, ends⟩
  have less := fills.shown_le
  rw [renderVisible]
  dsimp only
  rw [around.2]
  generalize layout.renderForward state.logicalScrollTop.offsetInItem
    state.logicalScrollTop.itemIx ((S.items state.items).drop state.logicalScrollTop.itemIx)
    ⟨[], [], padding.top, 0, false⟩ = forward at *
  by_cases short : forward.renderedHeight + padding.bottom -
      state.logicalScrollTop.offsetInItem < layout.availableHeight
  · rw [if_pos short]
    -- what is below the view is more than made up for by the padding
    have excess : 0 ≤ layout.overdraw →
        shownTo = (S.items state.items).length ∨
          layout.availableHeight ≤ padding.top - state.logicalScrollTop.offsetInItem +
              ListLayout.shownHeight forward.itemLayouts ∧
            ListLayout.measuredHeight forward.measuredItems -
              ListLayout.shownHeight forward.itemLayouts < -padding.bottom := by
      intro overdraw
      rcases fills with ⟨full, same⟩ | ⟨reaches, _⟩
      · rcases ends with isEnd | far
        · exact Or.inl (full.trans isEnd)
        · right
          constructor
          · linarith
          · linarith
      · right
        constructor
        · exact reaches
        · linarith
    have heightBoth : forward.renderedHeight + padding.bottom =
        padding.top + padding.bottom + ListLayout.measuredHeight forward.measuredItems := by
      rw [height, add_right_comm]
    rcases ListLayout.fillUpward_spec rendered
      { forward with renderedHeight := forward.renderedHeight + padding.bottom } around.1 range
      onScreen heightBoth (add_sub_cancel _ _).symm with
      ⟨front, passed, more, range, onScreen, height, shown, filled⟩
    have inside := range.inside
    have bound := range.bound
    have start := ListLayout.start_take (by omega) passed
    generalize layout.fillUpward _ _ = up at *
    have visible : ∀ offset anchor,
        offset = up.2.renderedHeight - layout.availableHeight ∨
          up.2.renderedHeight < layout.availableHeight ∧ offset = 0 →
        anchor = none ∨ anchor = some ⟨front, offset⟩ →
        Visible layout padding state ⟨up.1, up.2, ⟨front, offset⟩, anchor⟩ shownTo := by
      intro offset anchor isOffset isAnchor
      refine ⟨passed, range, onScreen, ?_, ?_, Or.inr isAnchor⟩
      · intro overdraw bottom
        dsimp only at more ⊢
        rcases excess overdraw with atEnd | ⟨reaches, excess⟩
        · exact Or.inr atEnd
        · left
          have less := fills.shown_le
          rcases isOffset with same | ⟨_, same⟩
          · linarith
          · rcases bottom with bottom | offsetNonneg
            · linarith
            · linarith
      · dsimp only
        rcases isOffset with same | ⟨short, same⟩
        · left
          linarith
        · exact Or.inr ⟨filled.resolve_left (not_le.mpr short), same⟩
    cases state.alignment with
    | top =>
        refine ⟨shownTo, ?_⟩
        dsimp only
        rw [start]
        apply visible
        · rcases le_or_gt layout.availableHeight up.2.renderedHeight with full | notFull
          · exact Or.inl (max_eq_left (sub_nonneg.mpr full))
          · exact Or.inr ⟨notFull, max_eq_right (sub_nonpos.mpr notFull.le)⟩
        · exact Or.inr rfl
    | bottom =>
        refine ⟨shownTo, ?_⟩
        dsimp only
        rw [start]
        exact visible _ _ (Or.inl rfl) (Or.inl rfl)
  · rw [if_neg short]
    refine ⟨shownTo, around.1, range, onScreen, ?_, ?_, Or.inl rfl⟩
    · intro overdraw _
      dsimp only
      rcases fills with ⟨full, same⟩ | ⟨reaches, _⟩
      · rcases ends with isEnd | far
        · right
          rw [full, isEnd]
        · left
          linarith
      · exact Or.inl reaches
    · left
      dsimp only
      linarith

/-- What is expected when a list is laid out: the items of one range, and no others, become
measured.  Those on screen follow the start of the view, fill it and leave no blank space, and at
most one other item is rendered, which has the focus. -/
structure LaidOut (layout : ListLayout E F K) (padding : Edges K) (state next : ListState S)
    (response : LayoutItemsResponse E K) (first shownTo last : Nat) : Prop where
  ordered : first ≤ response.scrollTop.itemIx ∧ response.scrollTop.itemIx ≤ shownTo ∧
    shownTo ≤ last ∧ last ≤ (S.items state.items).length
  items : ∀ index : Nat, (S.items next.items)[index]? =
    (S.items state.items)[index]?.map fun item =>
      if first ≤ index ∧ index < last then
        layout.measuredItem response.scrollTop.itemIx shownTo index item
      else item
  focusHandles : (S.items next.items).map ListItem.focusHandle =
    (S.items state.items).map ListItem.focusHandle
  itemLayouts : ∃ trailing : Option (ItemLayout E K),
    response.itemLayouts =
        layout.shown response.scrollTop.itemIx shownTo ++ trailing.toList ∧
      ∀ found ∈ trailing, found = layout.itemLayout found.index ∧
        ¬ (response.scrollTop.itemIx ≤ found.index ∧ found.index < shownTo) ∧
        ∃ item, (S.items next.items)[found.index]? = some item ∧
          item.containsFocused layout.containsFocused = true
  valid : next.Valid
  distinct : (response.itemLayouts.map ItemLayout.index).Nodup
  reaches : 0 ≤ layout.overdraw →
    0 ≤ padding.bottom ∨ 0 ≤ state.logicalScrollTop.offsetInItem →
    layout.availableHeight ≤ padding.top - response.scrollTop.offsetInItem +
        ListLayout.shownHeight (layout.shown response.scrollTop.itemIx shownTo) ∨
      shownTo = (S.items state.items).length
  noBlank : layout.availableHeight ≤
      padding.top + (layout.heights (S.items next.items)).sum + padding.bottom →
    layout.availableHeight ≤ padding.top - response.scrollTop.offsetInItem +
      ((layout.heights (S.items next.items)).drop response.scrollTop.itemIx).sum +
      padding.bottom

section Assembly

variable {first shownFrom shownTo : Nat} {measuredItems : List (ListItem F K)}

omit [LinearOrder K] [IsStrictOrderedRing K] in
theorem focusHandles_replaceMeasured {tree : S.Tree}
    (range : layout.MeasuredRange (S.items tree) first shownFrom shownTo measuredItems) :
    (S.items (replaceMeasured tree first measuredItems)).map ListItem.focusHandle =
      (S.items tree).map ListItem.focusHandle := by
  apply List.ext_getElem?
  intro index
  rw [List.getElem?_map, List.getElem?_map, getElem?_replaceMeasured range, Option.map_map]
  congr 1
  funext item
  rw [Function.comp_apply]
  split_ifs
  · rfl
  · rfl

omit [LinearOrder K] [IsStrictOrderedRing K] in
/-- The item that is rendered out of view is none of those on screen. -/
theorem focusedItem_outOfView {tree : S.Tree} {itemLayouts : List (ItemLayout E K)}
    (range : layout.MeasuredRange (S.items tree) first shownFrom shownTo measuredItems)
    (onScreen : layout.OnScreen (S.items tree) shownFrom shownTo itemLayouts false)
    {found : ItemLayout E K}
    (isFound : layout.focusedItem (replaceMeasured tree first measuredItems) = some found) :
    ¬ (shownFrom ≤ found.index ∧ found.index < shownTo) := by
  rintro ⟨behind, before⟩
  rcases ListLayout.focusedItem_spec isFound with ⟨_, item, isItem, focused⟩
  have bound : found.index < (S.items tree).length :=
    before.trans_le (range.inside.2.2.trans range.bound)
  have old := List.getElem?_eq_getElem bound
  have handles := congrArg (fun handles => handles[found.index]?)
    (focusHandles_replaceMeasured range)
  rw [List.getElem?_map, List.getElem?_map, isItem, old] at handles
  have same : item.focusHandle = (S.items tree)[found.index].focusHandle :=
    Option.some.inj handles
  have unfocused := onScreen.unfocused rfl found.index _ old behind before
  rw [ListItem.containsFocused] at focused unfocused
  rw [same, unfocused] at focused
  cases focused

omit [Field K] [LinearOrder K] [IsStrictOrderedRing K] in
theorem nodup_shown {trailing : Option (ItemLayout E K)}
    (apart : ∀ found ∈ trailing, ¬ (shownFrom ≤ found.index ∧ found.index < shownTo)) :
    ((layout.shown shownFrom shownTo ++ trailing.toList).map ItemLayout.index).Nodup := by
  have indices : (layout.shown shownFrom shownTo).map ItemLayout.index =
      List.range' shownFrom (shownTo - shownFrom) := by
    rw [ListLayout.shown, List.map_map]
    exact List.map_id _
  rw [List.map_append, indices]
  cases trailing with
  | none =>
      rw [Option.toList_none, List.map_nil, List.append_nil]
      exact List.nodup_range'
  | some found =>
      rw [Option.toList_some, List.map_singleton, List.nodup_append]
      refine ⟨List.nodup_range', List.nodup_singleton _, ?_⟩
      intro index inRange other isOther same
      rw [List.mem_singleton] at isOther
      rw [List.mem_range'_1, same, isOther] at inRange
      have outside := apart found rfl
      omega

variable (layout) in
/-- Items that have not been measured become no less high. -/
theorem measuredHeight_drop_le {items : List (ListItem F K)} (nonneg : layout.Nonneg items)
    (start : Nat) :
    ListLayout.measuredHeight (items.drop start) ≤ ((layout.heights items).drop start).sum := by
  rw [ListLayout.measuredHeight, List.map_drop]
  apply List.Forall₂.sum_le_sum
  rw [List.forall₂_iff_get]
  constructor
  · rw [List.length_drop, List.length_drop, List.length_map, ListLayout.heights,
      List.length_mapIdx]
  · intro index bound _
    rw [List.length_drop, List.length_map] at bound
    have inside : start + index < items.length := by omega
    simp only [ListLayout.heights, List.get_eq_getElem, List.getElem_drop, List.getElem_map,
      List.getElem_mapIdx]
    cases items[start + index] with
    | unmeasured focusHandle => exact nonneg.rendered _
    | measured size focusHandle => exact le_rfl

end Assembly

theorem layoutItems_laidOut (valid : state.Valid) (availableHeight : K) (padding : Edges K)
    (renderItem : Nat → E × Size K) (containsFocused : F → Bool)
    (rendered : ∀ index, 0 ≤ (renderItem index).2.height) :
    let result := state.layoutItems availableHeight padding renderItem containsFocused
    ∃ first shownTo last,
      LaidOut ⟨availableHeight, state.overdraw, renderItem, containsFocused⟩ padding state
        result.2 result.1 first shownTo last := by
  dsimp only
  rw [layoutItems]
  dsimp only
  generalize isLayout : (⟨availableHeight, state.overdraw, renderItem, containsFocused⟩ :
    ListLayout E F K) = layout
  have nonneg : ∀ index, 0 ≤ (layout.renderItem index).2.height := by
    rw [← isLayout]
    exact rendered
  rcases renderVisible_spec valid nonneg with ⟨shownTo, visible⟩
  generalize state.renderVisible layout padding = view at *
  rcases ListLayout.measureOverdraw_spec view.scrollTop.offsetInItem visible.passed
    visible.range with ⟨first, front, passed, isFirst, split, range⟩
  generalize layout.measureOverdraw _ _ _ = measured at *
  have inside := range.inside
  have bound := range.bound
  have start := ListLayout.start_take (by omega) passed
  rw [start]
  have layouts : ∃ trailing : Option (ItemLayout E K),
      (if view.progress.renderedFocusedItem then view.progress.itemLayouts
        else view.progress.itemLayouts ++
          (layout.focusedItem (replaceMeasured state.items first measured.2)).toList) =
        layout.shown view.scrollTop.itemIx shownTo ++ trailing.toList ∧
      ∀ found ∈ trailing, found = layout.itemLayout found.index ∧
        ¬ (view.scrollTop.itemIx ≤ found.index ∧ found.index < shownTo) ∧
        ∃ item, (S.items (replaceMeasured state.items first measured.2))[found.index]? =
            some item ∧ item.containsFocused layout.containsFocused = true := by
    have onScreen := visible.onScreen
    rw [onScreen.layouts]
    cases isFocused : view.progress.renderedFocusedItem with
    | true => exact ⟨none, (List.append_nil _).symm, fun _ none => nomatch none⟩
    | false =>
        rw [isFocused] at onScreen
        refine ⟨_, rfl, ?_⟩
        intro found isFound
        have focused := ListLayout.focusedItem_spec isFound
        exact ⟨focused.1, focusedItem_outOfView range onScreen isFound, focused.2⟩
  have nextValid : ListState.Valid { state with
      items := replaceMeasured state.items first measured.2
      logicalScrollTop? := view.logicalScrollTop? } := by
    constructor
    · intro anchor isAnchor
      have length := congrArg List.length (focusHandles_replaceMeasured range)
      rw [List.length_map, List.length_map] at length
      dsimp only at isAnchor ⊢
      rw [length]
      rcases visible.anchor with same | none | same
      · exact valid.anchored anchor (same ▸ isAnchor)
      · rw [none] at isAnchor
        cases isAnchor
      · rw [same] at isAnchor
        rw [← Option.some.inj isAnchor]
        omega
    · intro item member
      rcases List.mem_iff_getElem?.mp member with ⟨index, isItem⟩
      rw [getElem?_replaceMeasured range, Option.map_eq_some_iff] at isItem
      rcases isItem with ⟨old, isOld, rfl⟩
      have height := valid.heights old (List.mem_of_getElem? isOld)
      split_ifs
      · exact ListLayout.measuredItem_height ⟨valid.heights, nonneg⟩ isOld
      · exact height
  refine ⟨first, shownTo, first + measured.2.length, ?_⟩
  constructor
  · dsimp only
    exact ⟨inside.1, inside.2.1, inside.2.2, bound⟩
  · exact getElem?_replaceMeasured range
  · exact focusHandles_replaceMeasured range
  · exact layouts
  · exact nextValid
  · rcases layouts with ⟨trailing, same, apart⟩
    dsimp only
    rw [same]
    apply nodup_shown
    intro found isFound
    exact (apart found isFound).2.1
  · intro overdraw bottom
    rw [← visible.onScreen.layouts]
    exact visible.reaches overdraw bottom
  · intro tall
    dsimp only at tall ⊢
    rcases visible.noBlank with filled | ⟨atStart, atTop⟩
    · -- the items from the start of the view on are those measured, and the rest behind them
      have behind : ListLayout.measuredHeight
          ((S.items (replaceMeasured state.items first measured.2)).drop
            view.scrollTop.itemIx) =
          ListLayout.measuredHeight view.progress.measuredItems +
            ListLayout.measuredHeight
              ((S.items state.items).drop (first + measured.2.length)) := by
        rw [items_replaceMeasured bound, split, ← List.append_assoc, List.append_assoc,
          List.drop_left', ListLayout.measuredHeight_append]
        rw [List.length_append, List.length_take]
        omega
      have rest : 0 ≤ ListLayout.measuredHeight
          ((S.items state.items).drop (first + measured.2.length)) := by
        apply List.sum_nonneg
        rw [List.forall_mem_map]
        intro item member
        exact valid.heights item (List.mem_of_mem_drop member)
      have less := measuredHeight_drop_le layout ⟨nextValid.heights, nonneg⟩
        view.scrollTop.itemIx
      linarith
    · rw [atStart, atTop, List.drop_zero, sub_zero]
      exact tall

/-- Three items of height 40 in a view of height 100 that has been scrolled by half an item. -/
theorem layoutItems_laidOut_three :
    let state : ListState lists :=
      { ListState.new lists 3 .top 10 with logicalScrollTop? := some ⟨0, 20⟩ }
    let renderItem : Nat → Nat × Size ℚ := fun index => (index, ⟨50, 40⟩)
    let result := state.layoutItems 100 .zero renderItem (fun _ => false)
    ∃ first shownTo last,
      LaidOut ⟨100, 10, renderItem, fun _ => false⟩ .zero state result.2 result.1
        first shownTo last := by
  intro state renderItem
  have valid : state.Valid := by
    constructor
    · intro anchor isAnchor
      cases isAnchor
      decide
    · exact (new_valid 3 .top 10).heights
  have rendered : ∀ index, 0 ≤ (renderItem index).2.height := by
    intro _
    exact Nat.ofNat_nonneg 40
  exact layoutItems_laidOut valid 100 .zero renderItem (fun _ => false) rendered

/-- With an overdraw of -50, the items of a list of height 120 fill half of a view of height
100.  So they do with a padding of -10 where the anchor is 50 above the first item. -/
theorem not_layoutItems_reachesBottom :
    let renderItem : Nat → Nat × Size ℚ := fun index => (index, ⟨50, 10⟩)
    let state : ListState lists := ListState.new lists 12 .top (-50)
    let result := state.layoutItems 100 .zero renderItem (fun _ => false)
    let above : ListState lists :=
      { ListState.new lists 12 .top 0 with logicalScrollTop? := some ⟨0, -50⟩ }
    let padded := above.layoutItems 100 ⟨0, 0, -10, 0⟩ renderItem (fun _ => false)
    ¬ (100 ≤ 0 - result.1.scrollTop.offsetInItem +
          ListLayout.shownHeight result.1.itemLayouts ∨
        (result.1.itemLayouts.getLast?.map ItemLayout.index) = some 11) ∧
      ¬ (100 ≤ 0 - padded.1.scrollTop.offsetInItem +
          ListLayout.shownHeight padded.1.itemLayouts ∨
        (padded.1.itemLayouts.getLast?.map ItemLayout.index) = some 11) := by
  decide +kernel

end ListState

end Gpui
