import Gpui.Style.Highlight

/-!
# Scrolling to an item

A scroll handle is asked to scroll to a child of its element, which is done when the element
is laid out the next time: the offset is changed so that the start or the end of the child is
at that of the viewport, and is clamped to what can be scrolled.

The viewport and the axes that scroll are those that the handle remembers from the last layout.
-/

namespace Gpui

inductive Overflow where
  | visible
  | clip
  | hidden
  | scroll
deriving DecidableEq, Repr

/-- The positioning strategies of a scroll handle. -/
inductive DivScrollStrategy where
  | firstVisible
  | top
deriving DecidableEq, Repr

structure ScrollActiveItem where
  index : Nat
  strategy : DivScrollStrategy
deriving DecidableEq, Repr

/-- The state of a scroll handle, with the offset that it shares with its element. -/
structure ScrollHandleState (K : Type) where
  offset : Point K
  bounds : Bounds K
  maxOffset : Size K
  childBounds : List (Bounds K)
  scrollToBottom : Bool
  overflow : Point Overflow
  activeItem : Option ScrollActiveItem

/-- A layout of the element: its bounds, its padding, its overflow and the bounds of its
children. -/
structure DivLayout (K : Type) where
  bounds : Bounds K
  padding : Edges K
  overflow : Point Overflow
  childBounds : List (Bounds K)

variable {K : Type} [Field K] [LinearOrder K]

/-- Scroll the minimal amount to make a range visible in a viewport on one axis. -/
def revealRange (overflow : Overflow) (viewStart viewEnd itemStart itemEnd offset : K) : K :=
  if overflow = .scroll then
    if itemStart + offset < viewStart then viewStart - itemStart
    else if itemEnd + offset > viewEnd then viewEnd - itemEnd
    else offset
  else offset

/-- `clamp(-scroll_max, 0)`. -/
def clampOffset (scrollMax offset : K) : K :=
  if offset < -scrollMax then -scrollMax else if offset > 0 then 0 else offset

def roundToTwoDecimals [FloorRing K] (pixels : K) : K :=
  (floatRound (pixels * ((100 : ℕ) : K)) : K) / ((100 : ℕ) : K)

namespace ScrollHandleState

variable {K : Type} [Field K] [LinearOrder K]

def new : ScrollHandleState K where
  offset := ⟨0, 0⟩
  bounds := ⟨⟨0, 0⟩, ⟨0, 0⟩⟩
  maxOffset := ⟨0, 0⟩
  childBounds := []
  scrollToBottom := false
  overflow := ⟨.visible, .visible⟩
  activeItem := none

omit [Field K] [LinearOrder K] in
def scrollToItem (self : ScrollHandleState K) (ix : Nat) : ScrollHandleState K :=
  { self with activeItem := some ⟨ix, .firstVisible⟩ }

/-- `scroll_to_active_item`, which keeps a request for a child that there is not. -/
def scrollToActiveItem (self : ScrollHandleState K) : ScrollHandleState K :=
  match self.activeItem with
  | none => self
  | some activeItem =>
      match self.childBounds[activeItem.index]? with
      | none => self
      | some bounds =>
          let view := self.bounds
          let y :=
            match activeItem.strategy with
            | .firstVisible =>
                revealRange self.overflow.y view.origin.y (view.origin.y + view.size.height)
                  bounds.origin.y (bounds.origin.y + bounds.size.height) self.offset.y
            | .top => view.origin.y - bounds.origin.y
          let x :=
            revealRange self.overflow.x view.origin.x (view.origin.x + view.size.width)
              bounds.origin.x (bounds.origin.x + bounds.size.width) self.offset.x
          { self with offset := ⟨x, y⟩, activeItem := none }

end ScrollHandleState

namespace DivLayout

variable {K : Type} [Field K] [LinearOrder K]

/-- The size of the bounds of all children, the end of which is not before the origin of the
window. -/
def contentSize (self : DivLayout K) : Size K :=
  match self.childBounds with
  | [] => self.bounds.size
  | first :: rest =>
      let childMin :=
        rest.foldl (fun (least : Point K) child => least.min child.origin) first.origin
      let childMax := self.childBounds.foldl
        (fun (greatest : Point K) child =>
          greatest.max (child.origin.add ⟨child.size.width, child.size.height⟩)) ⟨0, 0⟩
      ⟨childMax.x - childMin.x, childMax.y - childMin.y⟩

/-- How much larger the content is than the element, on each axis. -/
def overflowing (self : DivLayout K) : Size K :=
  ⟨self.contentSize.width + (self.padding.left + self.padding.right) - self.bounds.size.width,
    self.contentSize.height + (self.padding.top + self.padding.bottom) -
      self.bounds.size.height⟩

variable [FloorRing K]

def scrollMax (self : DivLayout K) : Size K :=
  ⟨max (roundToTwoDecimals self.overflowing.width) 0,
    max (roundToTwoDecimals self.overflowing.height) 0⟩

/-- `clamp_scroll_position`, which has the handle remember the layout. -/
def clampScrollPosition (self : DivLayout K) (handle : ScrollHandleState K) :
    ScrollHandleState K :=
  { handle with
    overflow := self.overflow
    scrollToBottom := false
    offset :=
      ⟨clampOffset self.scrollMax.width handle.offset.x,
        if handle.scrollToBottom then -self.scrollMax.height
        else clampOffset self.scrollMax.height handle.offset.y⟩
    maxOffset := self.scrollMax
    bounds := self.bounds }

/-- `prepaint`. -/
def prepaint (self : DivLayout K) (handle : ScrollHandleState K) : ScrollHandleState K :=
  let handle :=
    if self.childBounds = [] then handle else { handle with childBounds := self.childBounds }
  self.clampScrollPosition handle.scrollToActiveItem

end DivLayout

/-! ## One axis -/

section Axis

variable {K : Type} [Field K] [LinearOrder K] [IsStrictOrderedRing K]

/-- A range is visible in a viewport up to a tolerance at its end. -/
def RangeVisible (viewStart viewEnd itemStart itemEnd offset tolerance : K) : Prop :=
  viewStart ≤ itemStart + offset ∧ itemEnd + offset ≤ viewEnd + tolerance

/-- A range covers the viewport, or its start is that of the viewport, up to a tolerance. -/
def RangeCovers (viewStart viewEnd itemStart itemEnd offset tolerance : K) : Prop :=
  itemStart + offset ≤ viewStart + tolerance ∧
    (viewStart ≤ itemStart + offset ∨ viewEnd ≤ itemEnd + offset)

theorem clampOffset_mem {scrollMax : K} (nonneg : 0 ≤ scrollMax) (offset : K) :
    -scrollMax ≤ clampOffset scrollMax offset ∧ clampOffset scrollMax offset ≤ 0 := by
  rw [clampOffset]
  by_cases below : offset < -scrollMax
  · rw [if_pos below]
    exact ⟨le_rfl, neg_nonpos.mpr nonneg⟩
  · rw [if_neg below]
    by_cases above : offset > 0
    · rw [if_pos above]
      exact ⟨neg_nonpos.mpr nonneg, le_rfl⟩
    · rw [if_neg above]
      exact ⟨not_lt.mp below, not_lt.mp above⟩

omit [IsStrictOrderedRing K] in
theorem clampOffset_eq {scrollMax offset : K} (least : -scrollMax ≤ offset)
    (greatest : offset ≤ 0) : clampOffset scrollMax offset = offset := by
  rw [clampOffset, if_neg (not_lt.mpr least), if_neg (not_lt.mpr greatest)]

theorem clampOffset_clampOffset {scrollMax : K} (nonneg : 0 ≤ scrollMax) (offset : K) :
    clampOffset scrollMax (clampOffset scrollMax offset) = clampOffset scrollMax offset :=
  clampOffset_eq (clampOffset_mem nonneg offset).1 (clampOffset_mem nonneg offset).2

/-- The offset that a request for a range ends up with. -/
def resolveOffset (overflow : Overflow) (scrollMax viewStart viewEnd itemStart itemEnd offset : K) :
    K :=
  clampOffset scrollMax (revealRange overflow viewStart viewEnd itemStart itemEnd offset)

omit [IsStrictOrderedRing K] in
/-- A range that is visible stays where it is. -/
theorem revealRange_of_visible (overflow : Overflow)
    {viewStart viewEnd itemStart itemEnd offset : K}
    (visible : RangeVisible viewStart viewEnd itemStart itemEnd offset 0) :
    revealRange overflow viewStart viewEnd itemStart itemEnd offset = offset := by
  rw [revealRange]
  by_cases scrolls : overflow = .scroll
  · rw [if_pos scrolls, if_neg (not_lt.mpr visible.1), if_neg]
    rw [gt_iff_lt, not_lt]
    simpa using visible.2
  · rw [if_neg scrolls]

/-- A range in the content, which can be scrolled by a maximum up to a tolerance. -/
structure ScrolledRange (viewStart viewEnd itemStart itemEnd scrollMax tolerance : K) : Prop where
  nonneg : 0 ≤ scrollMax
  start : viewStart ≤ itemStart
  stop : itemEnd ≤ viewEnd + (scrollMax + tolerance)
  tolerant : 0 ≤ tolerance

/-- The range is visible, or the content is scrolled to its end. -/
structure Settled (viewStart viewEnd itemStart itemEnd scrollMax offset : K) : Prop where
  least : -scrollMax ≤ offset
  greatest : offset ≤ 0
  start : viewStart ≤ itemStart + offset
  stop : itemEnd + offset ≤ viewEnd ∨ offset = -scrollMax

namespace ScrolledRange

variable {viewStart viewEnd itemStart itemEnd scrollMax tolerance : K}

theorem visible_of_settled
    (range : ScrolledRange viewStart viewEnd itemStart itemEnd scrollMax tolerance) {offset : K}
    (settled : Settled viewStart viewEnd itemStart itemEnd scrollMax offset) :
    RangeVisible viewStart viewEnd itemStart itemEnd offset tolerance := by
  refine ⟨settled.start, ?_⟩
  have stop := range.stop
  have tolerant := range.tolerant
  rcases settled.stop with inView | atEnd
  · linarith
  · linarith

/-- Clamping keeps what is visible in view. -/
theorem settled_clampOffset
    (range : ScrolledRange viewStart viewEnd itemStart itemEnd scrollMax tolerance) {offset : K}
    (visible : RangeVisible viewStart viewEnd itemStart itemEnd offset 0) :
    Settled viewStart viewEnd itemStart itemEnd scrollMax (clampOffset scrollMax offset) := by
  rcases clampOffset_mem range.nonneg offset with ⟨least, greatest⟩
  rcases visible with ⟨start, stop⟩
  rw [add_zero] at stop
  have itemStarts := range.start
  refine ⟨least, greatest, ?_, ?_⟩
  · rw [clampOffset]
    split_ifs with below above
    · linarith
    · linarith
    · exact start
  · rw [clampOffset]
    split_ifs with below above
    · right
      rfl
    · left
      linarith
    · left
      exact stop

/-- A range that is no larger than the viewport gets visible. -/
theorem settled_of_fits
    (range : ScrolledRange viewStart viewEnd itemStart itemEnd scrollMax tolerance)
    (fits : itemEnd - itemStart ≤ viewEnd - viewStart) (offset : K) :
    Settled viewStart viewEnd itemStart itemEnd scrollMax
      (resolveOffset .scroll scrollMax viewStart viewEnd itemStart itemEnd offset) := by
  apply range.settled_clampOffset
  rw [RangeVisible, add_zero, revealRange, if_pos rfl]
  split_ifs with before behind
  · constructor
    · linarith
    · linarith
  · constructor
    · linarith
    · linarith
  · exact ⟨not_lt.mp before, not_lt.mp behind⟩

/-- Where a range has settled it stays. -/
theorem resolve_of_settled {offset : K}
    (settled : Settled viewStart viewEnd itemStart itemEnd scrollMax offset) :
    resolveOffset .scroll scrollMax viewStart viewEnd itemStart itemEnd offset = offset := by
  rw [resolveOffset, revealRange, if_pos rfl, if_neg (not_lt.mpr settled.start)]
  by_cases behind : itemEnd + offset > viewEnd
  · have atEnd := settled.stop.resolve_left (not_le.mpr behind)
    have beyond : viewEnd - itemEnd < -scrollMax := by linarith
    rw [if_pos behind, clampOffset, if_pos beyond, atEnd]
  · rw [if_neg behind, clampOffset_eq settled.least settled.greatest]

/-- A range that is larger than the viewport is aligned to its start if that is before the
viewport, and else to its end. -/
theorem resolve_of_larger (larger : viewEnd - viewStart < itemEnd - itemStart) (offset : K) :
    resolveOffset .scroll scrollMax viewStart viewEnd itemStart itemEnd offset =
      if itemStart + offset < viewStart then clampOffset scrollMax (viewStart - itemStart)
      else clampOffset scrollMax (viewEnd - itemEnd) := by
  rw [resolveOffset, revealRange, if_pos rfl]
  split_ifs with before behind
  · rfl
  · rfl
  · exfalso
    linarith

theorem covers_of_larger
    (range : ScrolledRange viewStart viewEnd itemStart itemEnd scrollMax tolerance)
    (larger : viewEnd - viewStart < itemEnd - itemStart) (offset : K) :
    RangeCovers viewStart viewEnd itemStart itemEnd
      (resolveOffset .scroll scrollMax viewStart viewEnd itemStart itemEnd offset) tolerance := by
  rcases range with ⟨nonneg, start, stop, tolerant⟩
  rw [resolve_of_larger larger]
  split_ifs with before
  · rw [clampOffset]
    split_ifs with below above
    · refine ⟨by linarith, .inl (by linarith)⟩
    · exfalso
      linarith
    · refine ⟨by linarith, .inl (by linarith)⟩
  · rw [clampOffset]
    split_ifs with below above
    · refine ⟨by linarith, .inr (by linarith)⟩
    · exfalso
      linarith
    · refine ⟨by linarith, .inr (by linarith)⟩

/-- A larger range is aligned to one edge and to the other in turn, unless the content ends with
the viewport before its start gets there. -/
theorem resolve_resolve_larger_iff
    (range : ScrolledRange viewStart viewEnd itemStart itemEnd scrollMax tolerance)
    (larger : viewEnd - viewStart < itemEnd - itemStart) (offset : K) :
    let resolve := resolveOffset .scroll scrollMax viewStart viewEnd itemStart itemEnd
    resolve (resolve offset) = resolve offset ↔ scrollMax ≤ itemStart - viewStart := by
  rcases range with ⟨nonneg, start, stop, tolerant⟩
  intro resolve
  have isResolve : ∀ offset, resolve offset =
      if itemStart + offset < viewStart then clampOffset scrollMax (viewStart - itemStart)
      else clampOffset scrollMax (viewEnd - itemEnd) :=
    resolve_of_larger larger
  by_cases atEnd : scrollMax ≤ itemStart - viewStart
  · refine iff_of_true ?_ atEnd
    have isLeast : ∀ offset, resolve offset = -scrollMax := by
      intro offset
      rw [isResolve]
      split_ifs with before
      · rw [clampOffset]
        split_ifs with below above
        · rfl
        · exfalso
          linarith
        · linarith
      · rw [clampOffset, if_pos (by linarith)]
    rw [isLeast, isLeast]
  · refine iff_of_false ?_ atEnd
    rw [not_le] at atEnd
    have atStart : clampOffset scrollMax (viewStart - itemStart) = viewStart - itemStart :=
      clampOffset_eq (by linarith) (by linarith)
    have earlier : clampOffset scrollMax (viewEnd - itemEnd) < viewStart - itemStart := by
      rw [clampOffset]
      split_ifs with below above
      · linarith
      · exfalso
        linarith
      · linarith
    have swaps : ∀ offset, resolve offset ≠ resolve (resolve offset) := by
      intro offset
      rw [isResolve offset, atStart]
      by_cases before : itemStart + offset < viewStart
      · rw [if_pos before, isResolve, if_neg (by linarith)]
        exact earlier.ne'
      · rw [if_neg before, isResolve, if_pos (by linarith), atStart]
        exact earlier.ne
    exact fun same => swaps offset same.symm

/-- What is expected of a request on one axis that scrolls. -/
theorem shown (range : ScrolledRange viewStart viewEnd itemStart itemEnd scrollMax tolerance)
    (offset : K) :
    let resolved := resolveOffset .scroll scrollMax viewStart viewEnd itemStart itemEnd offset
    (itemEnd - itemStart ≤ viewEnd - viewStart →
      RangeVisible viewStart viewEnd itemStart itemEnd resolved tolerance) ∧
    (viewEnd - viewStart < itemEnd - itemStart →
      RangeCovers viewStart viewEnd itemStart itemEnd resolved tolerance) :=
  ⟨fun fits => range.visible_of_settled (range.settled_of_fits fits offset),
    fun larger => range.covers_of_larger larger offset⟩

/-- Asking again changes nothing where the range is not larger than the viewport, or ends with
the content. -/
theorem resolve_resolve_iff
    (range : ScrolledRange viewStart viewEnd itemStart itemEnd scrollMax tolerance)
    (overflow : Overflow) (offset : K) :
    let resolve := resolveOffset overflow scrollMax viewStart viewEnd itemStart itemEnd
    resolve (resolve offset) = resolve offset ↔
      (overflow = .scroll → itemEnd - itemStart ≤ viewEnd - viewStart ∨
        scrollMax ≤ itemStart - viewStart) := by
  intro resolve
  by_cases scrolls : overflow = .scroll
  · rcases scrolls with rfl
    rw [forall_prop_of_true rfl]
    by_cases fits : itemEnd - itemStart ≤ viewEnd - viewStart
    · exact iff_of_true (resolve_of_settled (range.settled_of_fits fits offset)) (.inl fits)
    · rw [or_iff_right fits]
      exact range.resolve_resolve_larger_iff (not_le.mp fits) offset
  · refine iff_of_true ?_ fun isScroll => absurd isScroll scrolls
    have isClamp : ∀ offset, resolve offset = clampOffset scrollMax offset := by
      intro offset
      simp only [resolve, resolveOffset, revealRange]
      rw [if_neg scrolls]
    rw [isClamp, isClamp, clampOffset_clampOffset range.nonneg]

end ScrolledRange

end Axis

/-! ## Requests -/

section Requests

variable {K : Type} [Field K] [LinearOrder K] [FloorRing K]

/-- The item is in the content of the element, which starts with it. -/
structure DivLayout.Contains (layout : DivLayout K) (item : Bounds K) : Prop where
  left : layout.bounds.origin.x ≤ item.origin.x
  right : item.origin.x + item.size.width ≤
    layout.bounds.origin.x +
      (layout.contentSize.width + (layout.padding.left + layout.padding.right))
  top : layout.bounds.origin.y ≤ item.origin.y
  bottom : item.origin.y + item.size.height ≤
    layout.bounds.origin.y +
      (layout.contentSize.height + (layout.padding.top + layout.padding.bottom))

/-- The handle has been laid out with the viewport and the overflow of a layout, and there is no
request for the bottom. -/
structure ScrollHandleState.Remembers (handle : ScrollHandleState K) (layout : DivLayout K) :
    Prop where
  bounds : handle.bounds = layout.bounds
  overflow : handle.overflow = layout.overflow
  noRequest : handle.scrollToBottom = false

/-- On the axes that scroll, the item is no larger than the viewport, or the content ends with
the viewport before the start of the item gets there. -/
structure DivLayout.Fits (layout : DivLayout K) (item : Bounds K) : Prop where
  horizontally : layout.overflow.x = .scroll → item.size.width ≤ layout.bounds.size.width ∨
    layout.scrollMax.width ≤ item.origin.x - layout.bounds.origin.x
  vertically : layout.overflow.y = .scroll → item.size.height ≤ layout.bounds.size.height ∨
    layout.scrollMax.height ≤ item.origin.y - layout.bounds.origin.y

/-- By how much rounding to two decimals may be wrong. -/
def roundingTolerance : K :=
  1 / ((200 : ℕ) : K)

/-- The item is visible with an offset if it is no larger than the viewport, and else it covers
the viewport or shows its start. -/
def DivLayout.Shows (self : DivLayout K) (item : Bounds K) (offset : Point K) : Prop :=
  (self.overflow.x = .scroll →
    (item.size.width ≤ self.bounds.size.width →
      RangeVisible self.bounds.origin.x (self.bounds.origin.x + self.bounds.size.width)
        item.origin.x (item.origin.x + item.size.width) offset.x roundingTolerance) ∧
    (self.bounds.size.width < item.size.width →
      RangeCovers self.bounds.origin.x (self.bounds.origin.x + self.bounds.size.width)
        item.origin.x (item.origin.x + item.size.width) offset.x roundingTolerance)) ∧
  (self.overflow.y = .scroll →
    (item.size.height ≤ self.bounds.size.height →
      RangeVisible self.bounds.origin.y (self.bounds.origin.y + self.bounds.size.height)
        item.origin.y (item.origin.y + item.size.height) offset.y roundingTolerance) ∧
    (self.bounds.size.height < item.size.height →
      RangeCovers self.bounds.origin.y (self.bounds.origin.y + self.bounds.size.height)
        item.origin.y (item.origin.y + item.size.height) offset.y roundingTolerance))

/-- The item is in the viewport on both axes. -/
def DivLayout.FullyVisible (self : DivLayout K) (item : Bounds K) (offset : Point K) : Prop :=
  RangeVisible self.bounds.origin.x (self.bounds.origin.x + self.bounds.size.width)
      item.origin.x (item.origin.x + item.size.width) offset.x 0 ∧
    RangeVisible self.bounds.origin.y (self.bounds.origin.y + self.bounds.size.height)
      item.origin.y (item.origin.y + item.size.height) offset.y 0

/-- What is expected of a request for an item. -/
structure ScrollHandleState.Stable (handle : ScrollHandleState K) (layout : DivLayout K) (ix : Nat)
    (item : Bounds K) : Prop where
  inRange :
    let after := layout.prepaint (handle.scrollToItem ix)
    (-after.maxOffset.width ≤ after.offset.x ∧ after.offset.x ≤ 0) ∧
      -after.maxOffset.height ≤ after.offset.y ∧ after.offset.y ≤ 0
  shows : layout.Shows item (layout.prepaint (handle.scrollToItem ix)).offset
  /-- An item that is visible has the offset that there is without a request. -/
  unmoved : layout.FullyVisible item handle.offset →
    (layout.prepaint (handle.scrollToItem ix)).offset = (layout.clampScrollPosition handle).offset
  again :
    let after := layout.prepaint (handle.scrollToItem ix)
    (layout.prepaint (after.scrollToItem ix)).offset = after.offset

variable [IsStrictOrderedRing K]

theorem sub_half_le_floatRound (value : K) : value - 1 / 2 ≤ floatRound value := by
  rw [floatRound]
  split_ifs with nonneg
  · have above := Int.lt_floor_add_one (value + 1 / ((2 : ℕ) : K))
    push_cast at above ⊢
    linarith
  · have below := Int.le_ceil (value - 1 / ((2 : ℕ) : K))
    push_cast at below ⊢
    exact below

theorem le_roundToTwoDecimals (pixels : K) :
    pixels ≤ roundToTwoDecimals pixels + roundingTolerance := by
  have rounded := sub_half_le_floatRound (pixels * ((100 : ℕ) : K))
  rw [roundToTwoDecimals, roundingTolerance]
  push_cast at rounded ⊢
  have shared : (floatRound (pixels * 100) : K) / 100 + 1 / 200 =
      (floatRound (pixels * 100) + 1 / 2) / 100 := by ring
  rw [shared, le_div_iff₀ (by norm_num)]
  linarith

namespace DivLayout

variable {layout : DivLayout K} {handle : ScrollHandleState K} {item : Bounds K} {ix : Nat}

theorem Contains.horizontal (contains : layout.Contains item) :
    ScrolledRange layout.bounds.origin.x (layout.bounds.origin.x + layout.bounds.size.width)
      item.origin.x (item.origin.x + item.size.width) layout.scrollMax.width
      roundingTolerance := by
  have rounded := (le_roundToTwoDecimals layout.overflowing.width).trans
    (add_le_add_left (le_max_left _ 0) _)
  refine ⟨le_max_right _ _, contains.left, ?_, ?_⟩
  · refine contains.right.trans ?_
    rw [scrollMax]
    rw [overflowing] at rounded ⊢
    dsimp only at rounded ⊢
    linarith
  · exact one_div_nonneg.mpr (Nat.cast_nonneg _)

theorem Contains.vertical (contains : layout.Contains item) :
    ScrolledRange layout.bounds.origin.y (layout.bounds.origin.y + layout.bounds.size.height)
      item.origin.y (item.origin.y + item.size.height) layout.scrollMax.height
      roundingTolerance := by
  have rounded := (le_roundToTwoDecimals layout.overflowing.height).trans
    (add_le_add_left (le_max_left _ 0) _)
  refine ⟨le_max_right _ _, contains.top, ?_, ?_⟩
  · refine contains.bottom.trans ?_
    rw [scrollMax]
    rw [overflowing] at rounded ⊢
    dsimp only at rounded ⊢
    linarith
  · exact one_div_nonneg.mpr (Nat.cast_nonneg _)

/-- The offset of an axis after a request. -/
def resolveX (layout : DivLayout K) (item : Bounds K) : K → K :=
  resolveOffset layout.overflow.x layout.scrollMax.width layout.bounds.origin.x
    (layout.bounds.origin.x + layout.bounds.size.width) item.origin.x
    (item.origin.x + item.size.width)

def resolveY (layout : DivLayout K) (item : Bounds K) : K → K :=
  resolveOffset layout.overflow.y layout.scrollMax.height layout.bounds.origin.y
    (layout.bounds.origin.y + layout.bounds.size.height) item.origin.y
    (item.origin.y + item.size.height)

omit [IsStrictOrderedRing K] in
/-- A request that is resolved. -/
theorem prepaint_scrollToItem (found : layout.childBounds[ix]? = some item)
    (remembers : handle.Remembers layout) :
    layout.prepaint (handle.scrollToItem ix) =
      { offset := ⟨layout.resolveX item handle.offset.x, layout.resolveY item handle.offset.y⟩
        bounds := layout.bounds
        maxOffset := layout.scrollMax
        childBounds := layout.childBounds
        scrollToBottom := false
        overflow := layout.overflow
        activeItem := none } := by
  have nonempty : layout.childBounds ≠ [] := by
    intro isNil
    rw [isNil] at found
    cases found
  rcases remembers with ⟨bounds, overflow, noRequest⟩
  simp only [prepaint, ScrollHandleState.scrollToItem]
  rw [if_neg nonempty]
  simp only [ScrollHandleState.scrollToActiveItem, found, clampScrollPosition, bounds, overflow,
    noRequest]
  rfl

/-- Requests are stable for the items that fit, and for no others. -/
theorem stable_iff (layout : DivLayout K) (handle : ScrollHandleState K) (ix : Nat)
    (item : Bounds K) (found : layout.childBounds[ix]? = some item)
    (contains : layout.Contains item) (remembers : handle.Remembers layout) :
    handle.Stable layout ix item ↔ layout.Fits item := by
  have resolved := prepaint_scrollToItem found remembers
  have remembersAfter : (layout.prepaint (handle.scrollToItem ix)).Remembers layout := by
    rw [resolved]
    exact ⟨rfl, rfl, rfl⟩
  have resolvedAgain := prepaint_scrollToItem found remembersAfter
  have again : (layout.prepaint
      ((layout.prepaint (handle.scrollToItem ix)).scrollToItem ix)).offset =
        (layout.prepaint (handle.scrollToItem ix)).offset ↔ layout.Fits item := by
    rw [resolvedAgain, resolved, Point.mk.injEq]
    have horizontally := contains.horizontal.resolve_resolve_iff layout.overflow.x handle.offset.x
    have vertically := contains.vertical.resolve_resolve_iff layout.overflow.y handle.offset.y
    rw [add_sub_cancel_left, add_sub_cancel_left] at horizontally vertically
    constructor
    · rintro ⟨sameX, sameY⟩
      exact ⟨horizontally.mp sameX, vertically.mp sameY⟩
    · rintro ⟨fitsX, fitsY⟩
      exact ⟨horizontally.mpr fitsX, vertically.mpr fitsY⟩
  constructor
  · intro stable
    exact again.mp stable.again
  · intro fits
    refine ⟨?_, ?_, ?_, again.mpr fits⟩
    · rw [resolved]
      exact ⟨clampOffset_mem contains.horizontal.nonneg _,
        clampOffset_mem contains.vertical.nonneg _⟩
    · rw [resolved]
      constructor
      · intro scrolls
        have shown := contains.horizontal.shown handle.offset.x
        rw [add_sub_cancel_left, add_sub_cancel_left] at shown
        simp only [resolveX]
        rw [scrolls]
        exact shown
      · intro scrolls
        have shown := contains.vertical.shown handle.offset.y
        rw [add_sub_cancel_left, add_sub_cancel_left] at shown
        simp only [resolveY]
        rw [scrolls]
        exact shown
    · rintro ⟨visibleX, visibleY⟩
      rw [resolved]
      simp only [clampScrollPosition, resolveX, resolveY, resolveOffset, remembers.noRequest]
      rw [revealRange_of_visible _ visibleX, revealRange_of_visible _ visibleY]
      rfl

/-- Items of heights 150 and 100 in a viewport of height 100 that scrolls vertically. -/
def twoItems : DivLayout ℚ where
  bounds := ⟨⟨0, 0⟩, ⟨100, 100⟩⟩
  padding := ⟨0, 0, 0, 0⟩
  overflow := ⟨.visible, .scroll⟩
  childBounds := [⟨⟨0, 0⟩, ⟨100, 150⟩⟩, ⟨⟨0, 150⟩, ⟨100, 100⟩⟩]

theorem stable_iff_second :
    let handle := twoItems.prepaint .new
    let item : Bounds ℚ := ⟨⟨0, 150⟩, ⟨100, 100⟩⟩
    handle.Stable twoItems 1 item ↔ twoItems.Fits item :=
  stable_iff twoItems (twoItems.prepaint .new) 1 ⟨⟨0, 150⟩, ⟨100, 100⟩⟩ rfl
    ⟨by decide +kernel, by decide +kernel, by decide +kernel, by decide +kernel⟩ ⟨rfl, rfl, rfl⟩

/-- The first item, which is larger than the viewport, is aligned to its end and then to its
start.  A request for the second before the first layout does nothing. -/
theorem not_stable :
    (let handle := twoItems.prepaint .new
      let item : Bounds ℚ := ⟨⟨0, 0⟩, ⟨100, 150⟩⟩
      twoItems.childBounds[0]? = some item ∧ twoItems.Contains item ∧
        handle.Remembers twoItems ∧ ¬ handle.Stable twoItems 0 item) ∧
    (let handle : ScrollHandleState ℚ := .new
      let item : Bounds ℚ := ⟨⟨0, 150⟩, ⟨100, 100⟩⟩
      twoItems.childBounds[1]? = some item ∧ twoItems.Contains item ∧
        twoItems.Fits item ∧ ¬ handle.Stable twoItems 1 item) := by
  constructor
  · refine ⟨rfl, ⟨by decide +kernel, by decide +kernel, by decide +kernel, by decide +kernel⟩,
      ⟨rfl, rfl, rfl⟩, ?_⟩
    intro stable
    exact absurd stable.again (by decide +kernel)
  · refine ⟨rfl, ⟨by decide +kernel, by decide +kernel, by decide +kernel, by decide +kernel⟩,
      ⟨by decide +kernel, by decide +kernel⟩, ?_⟩
    intro stable
    have visible := (stable.shows.2 rfl).1 (by decide +kernel)
    exact absurd visible.2 (by decide +kernel)

end DivLayout

end Requests

end Gpui
