import Gpui.Scene.Primitive

/-!
# The items of a uniform list

All items of a uniform list have the height of the item that was measured.  Only the items
that can be seen are rendered; their range is computed from the scroll offset by a floor and
a ceiling.  A flipped list shows its last item first.

A place is where an item is in the column of items, counted from the top.
-/

namespace Gpui

variable {K : Type} [Field K] [LinearOrder K]

/-- What a uniform list is laid out with. -/
structure UniformList (K : Type) where
  itemCount : Nat
  itemHeight : K
  yFlipped : Bool
  bounds : Bounds K
  border : Edges K
  padding : Edges K
deriving DecidableEq, Repr

namespace UniformList

omit [LinearOrder K] in
def paddedBounds (self : UniformList K) : Bounds K :=
  .fromCorners
    (self.bounds.origin.add
      ⟨self.border.left + self.padding.left, self.border.top + self.padding.top⟩)
    (self.bounds.bottomRight.sub
      ⟨self.border.right + self.padding.right, self.border.bottom + self.padding.bottom⟩)

/-- The places that are visible, from the first to before the last. -/
def visibleRange [FloorSemiring K] (self : UniformList K) (scrollOffset : Point K) : Nat × Nat :=
  let firstVisibleElementIx := ⌊-(scrollOffset.y + self.padding.top) / self.itemHeight⌋₊
  let lastVisibleElementIx :=
    ⌈(-scrollOffset.y + self.paddedBounds.size.height) / self.itemHeight⌉₊
  (firstVisibleElementIx, min lastVisibleElementIx self.itemCount)

/-- The range that the render callback is called with. -/
def renderedRange [FloorSemiring K] (self : UniformList K) (scrollOffset : Point K) : Nat × Nat :=
  let visibleRange := self.visibleRange scrollOffset
  if self.yFlipped then
    (self.itemCount - visibleRange.2, self.itemCount - visibleRange.1)
  else visibleRange

/-- The indices of a range, one after the other. -/
def indices (range : Nat × Nat) : List Nat :=
  List.range' range.1 (range.2 - range.1)

def itemOrigin (self : UniformList K) (scrollOffset : Point K) (ix : Nat) : Point K :=
  (self.paddedBounds.origin.add scrollOffset).add ⟨0, self.itemHeight * ix⟩

/-- The rendered items, with the points at which they are laid out. -/
def layoutItems [FloorSemiring K] (self : UniformList K) (scrollOffset : Point K) :
    List (Nat × Point K) :=
  let items := indices (self.renderedRange scrollOffset)
  let items := if self.yFlipped then items.reverse else items
  (items.zip (indices (self.visibleRange scrollOffset))).map fun (item, ix) =>
    (item, self.itemOrigin scrollOffset ix)

/-! ## Places and items -/

/-- The place of an item. -/
def place (self : UniformList K) (item : Nat) : Nat :=
  if self.yFlipped then self.itemCount - (item + 1) else item

omit [Field K] [LinearOrder K] in
theorem mem_indices {range : Nat × Nat} {ix : Nat} :
    ix ∈ indices range ↔ range.1 ≤ ix ∧ ix < range.2 := by
  rw [indices, List.mem_range'_1]
  omega

theorem visibleRange_le [FloorSemiring K] (self : UniformList K) (scrollOffset : Point K) :
    (self.visibleRange scrollOffset).2 ≤ self.itemCount :=
  min_le_right _ _

/-- An item is rendered if its place is visible. -/
theorem mem_renderedRange [FloorSemiring K] {self : UniformList K} {scrollOffset : Point K}
    {item : Nat} (isItem : item < self.itemCount) :
    item ∈ indices (self.renderedRange scrollOffset) ↔
      self.place item ∈ indices (self.visibleRange scrollOffset) := by
  have bound := self.visibleRange_le scrollOffset
  rw [mem_indices, mem_indices, renderedRange, place]
  by_cases flipped : self.yFlipped
  · rw [if_pos flipped, if_pos flipped]
    change self.itemCount - _ ≤ item ∧ item < self.itemCount - _ ↔ _
    omega
  · rw [if_neg flipped, if_neg flipped]

theorem lt_of_mem_renderedRange [FloorSemiring K] {self : UniformList K} {scrollOffset : Point K}
    {item : Nat} (rendered : item ∈ indices (self.renderedRange scrollOffset)) :
    item < self.itemCount := by
  have bound := self.visibleRange_le scrollOffset
  rw [mem_indices, renderedRange] at rendered
  by_cases flipped : self.yFlipped
  · rw [if_pos flipped] at rendered
    exact rendered.2.trans_le (Nat.sub_le _ _)
  · rw [if_neg flipped] at rendered
    exact rendered.2.trans_le bound

/-- The rendered items are those whose places are visible, in the order of their places. -/
theorem rendered_eq_map [FloorSemiring K] (self : UniformList K) (scrollOffset : Point K) :
    (if self.yFlipped then (indices (self.renderedRange scrollOffset)).reverse
      else indices (self.renderedRange scrollOffset)) =
      (indices (self.visibleRange scrollOffset)).map self.place := by
  have bound := self.visibleRange_le scrollOffset
  by_cases flipped : self.yFlipped
  · rw [if_pos flipped, renderedRange, if_pos flipped]
    rcases visible : self.visibleRange scrollOffset with ⟨first, last⟩
    rw [visible] at bound
    apply List.ext_getElem
    · simp only [indices, List.length_reverse, List.length_map, List.length_range']
      omega
    · intro position before inside
      simp only [indices, List.length_reverse, List.length_range', List.length_map] at before inside
      simp only [indices, List.getElem_reverse, List.getElem_map, List.getElem_range',
        List.length_range', place, if_pos flipped]
      omega
  · rw [if_neg flipped, renderedRange, if_neg flipped]
    have same : self.place = id := by
      funext ix
      rw [place, if_neg flipped]
      rfl
    rw [same, List.map_id]

/-- Each rendered item is laid out at its place. -/
theorem layoutItems_eq [FloorSemiring K] (self : UniformList K) (scrollOffset : Point K) :
    self.layoutItems scrollOffset =
      (indices (self.visibleRange scrollOffset)).map fun ix =>
        (self.place ix, self.itemOrigin scrollOffset ix) := by
  rw [layoutItems]
  simp only [rendered_eq_map]
  rw [← List.map_id (indices (self.visibleRange scrollOffset)), List.map_map, Function.comp_id,
    List.zip_map', List.map_map, List.map_id]
  rfl

/-! ## What is seen -/

/-- The rectangle of an item of some width, rendered or not. -/
def itemBounds (self : UniformList K) (width : Nat → K) (scrollOffset : Point K) (item : Nat) :
    Bounds K :=
  ⟨self.itemOrigin scrollOffset (self.place item), ⟨width item, self.itemHeight⟩⟩

/-- Only items are rendered, and every item that meets the mask. -/
def RendersVisible [FloorSemiring K] (self : UniformList K) (width : Nat → K)
    (scrollOffset : Point K) (mask : Bounds K) : Prop :=
  (∀ item ∈ indices (self.renderedRange scrollOffset), item < self.itemCount) ∧
    ∀ item < self.itemCount, (self.itemBounds width scrollOffset item).intersects mask = true →
      item ∈ indices (self.renderedRange scrollOffset)

/-- No item that meets the mask lies in the top border, or in the bottom padding and border. -/
def ClearOfEdges (self : UniformList K) (width : Nat → K) (scrollOffset : Point K)
    (mask : Bounds K) : Prop :=
  ∀ item < self.itemCount, (self.itemBounds width scrollOffset item).intersects mask = true →
    self.bounds.origin.y + self.border.top <
        (self.itemBounds width scrollOffset item).bottomRight.y ∧
      (self.itemBounds width scrollOffset item).origin.y <
        self.bounds.bottomRight.y - (self.border.bottom + self.padding.bottom)

variable [IsStrictOrderedRing K] [FloorSemiring K] {self : UniformList K}

/-- A place is visible if it reaches below the top border and above the bottom padding. -/
theorem mem_visibleRange (positive : 0 < self.itemHeight) {scrollOffset : Point K} {ix : Nat}
    (isPlace : ix < self.itemCount) :
    ix ∈ indices (self.visibleRange scrollOffset) ↔
      self.bounds.origin.y + self.border.top <
          (self.itemOrigin scrollOffset ix).y + self.itemHeight ∧
        (self.itemOrigin scrollOffset ix).y <
          self.bounds.bottomRight.y - (self.border.bottom + self.padding.bottom) := by
  have first : ⌊-(scrollOffset.y + self.padding.top) / self.itemHeight⌋₊ ≤ ix ↔
      -(scrollOffset.y + self.padding.top) < (ix + 1 : Nat) * self.itemHeight := by
    rw [← Nat.lt_succ_iff, Nat.floor_lt' (Nat.succ_ne_zero ix), div_lt_iff₀ positive]
  have last : ix < ⌈(-scrollOffset.y + self.paddedBounds.size.height) / self.itemHeight⌉₊ ↔
      ix * self.itemHeight < -scrollOffset.y + self.paddedBounds.size.height := by
    rw [Nat.lt_ceil, lt_div_iff₀ positive]
  rw [mem_indices, visibleRange]
  change _ ≤ ix ∧ ix < min _ _ ↔ _
  rw [lt_min_iff, first, last, and_iff_left isPlace]
  simp only [itemOrigin, paddedBounds, Bounds.fromCorners, Point.add, Point.sub, Nat.cast_add,
    Nat.cast_one]
  constructor
  · rintro ⟨top, bottom⟩
    constructor <;> linarith
  · rintro ⟨top, bottom⟩
    constructor <;> linarith

omit [Field K] [LinearOrder K] [IsStrictOrderedRing K] [FloorSemiring K] in
theorem place_lt {item : Nat} (isItem : item < self.itemCount) :
    self.place item < self.itemCount := by
  rw [place]
  by_cases flipped : self.yFlipped
  · rw [if_pos flipped]
    omega
  · rwa [if_neg flipped]

/-- The items that meet a mask are rendered exactly if none of them lies in the top border, or
in the bottom padding and border. -/
theorem rendersVisible_iff (positive : 0 < self.itemHeight) (width : Nat → K)
    (scrollOffset : Point K) (mask : Bounds K) :
    self.RendersVisible width scrollOffset mask ↔
      self.ClearOfEdges width scrollOffset mask := by
  have rendered : ∀ item < self.itemCount,
      item ∈ indices (self.renderedRange scrollOffset) ↔
        self.bounds.origin.y + self.border.top <
            (self.itemBounds width scrollOffset item).bottomRight.y ∧
          (self.itemBounds width scrollOffset item).origin.y <
            self.bounds.bottomRight.y - (self.border.bottom + self.padding.bottom) := by
    intro item isItem
    rw [mem_renderedRange isItem, mem_visibleRange positive (place_lt isItem)]
    rfl
  constructor
  · rintro ⟨-, visible⟩ item isItem meets
    exact (rendered item isItem).mp (visible item isItem meets)
  · intro clear
    constructor
    · exact fun item isRendered => lt_of_mem_renderedRange isRendered
    · intro item isItem meets
      exact (rendered item isItem).mpr (clear item isItem meets)

omit [IsStrictOrderedRing K] [FloorSemiring K] in
/-- A mask that leaves the top border, the bottom padding and the bottom border out shows no
item there. -/
theorem clearOfEdges_of_mask {width : Nat → K} {scrollOffset : Point K} {mask : Bounds K}
    (top : self.bounds.origin.y + self.border.top ≤ mask.origin.y)
    (bottom : mask.bottomRight.y ≤
      self.bounds.bottomRight.y - (self.border.bottom + self.padding.bottom)) :
    self.ClearOfEdges width scrollOffset mask := by
  intro item _ meets
  rcases (Bounds.intersects_iff _ _).mp meets with ⟨-, -, above, below⟩
  exact ⟨top.trans_lt below, above.trans_le bottom⟩

/-- A list without borders whose bottom padding is zero. -/
theorem rendersVisible_iff_unpadded :
    (⟨5, 10, true, ⟨⟨0, 0⟩, ⟨50, 30⟩⟩, ⟨0, 0, 0, 0⟩, ⟨4, 0, 0, 0⟩⟩ : UniformList ℚ).RendersVisible
      (fun _ => 50) ⟨0, -7⟩ ⟨⟨0, 0⟩, ⟨50, 30⟩⟩ := by
  apply (rendersVisible_iff (by decide +kernel) _ _ _).mpr
  apply clearOfEdges_of_mask <;> decide +kernel

/-- The second item of a list is seen in the bottom padding, and not rendered. -/
theorem not_rendersVisible :
    ¬ (⟨2, 10, false, ⟨⟨0, 0⟩, ⟨50, 20⟩⟩, ⟨0, 0, 0, 0⟩, ⟨0, 0, 10, 0⟩⟩ :
      UniformList ℚ).RendersVisible (fun _ => 50) ⟨0, 0⟩ ⟨⟨0, 0⟩, ⟨50, 20⟩⟩ := by
  rintro ⟨-, visible⟩
  exact absurd (visible 1 (by decide) (by decide +kernel)) (by decide +kernel)

end UniformList

end Gpui
