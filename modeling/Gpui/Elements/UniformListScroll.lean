import Gpui.Elements.UniformList

/-!
# Scrolling a uniform list to an item

A scroll handle asks for an item to be scrolled to, which is done when the list is laid out
the next time.  A number of items may be given by which the viewport is shrunk first, and the
list scrolls only if it has to, or if it is told to do so strictly.

The scroll offset is not positive; its negation is the position of the viewport in the content.
-/

namespace Gpui

/-- Where to place the element scrolled to. -/
inductive ScrollStrategy where
  | top
  | center
  | bottom
  | nearest
deriving DecidableEq, Repr

structure DeferredScrollToItem where
  itemIndex : UInt64
  strategy : ScrollStrategy
  /-- The offset in number of items. -/
  offset : Nat
  scrollStrict : Bool
deriving DecidableEq

variable {K : Type} [Field K] [LinearOrder K]

/-- `Ord::clamp`. -/
def clamp (value least greatest : K) : K :=
  if value < least then least else if greatest < value then greatest else value

/-! ## Clamping -/

section Clamp

variable {least greatest value other : K}

omit [Field K] in
theorem clamp_of_le (below : value ≤ least) (range : least ≤ greatest) :
    clamp value least greatest = least := by
  rw [clamp]
  rcases below.lt_or_eq with less | rfl
  · rw [if_pos less]
  · rw [if_neg (lt_irrefl _), if_neg (not_lt.mpr range)]

omit [Field K] in
theorem clamp_of_ge (above : greatest ≤ value) (range : least ≤ greatest) :
    clamp value least greatest = greatest := by
  rw [clamp, if_neg (not_lt.mpr (range.trans above))]
  rcases above.lt_or_eq with less | rfl
  · rw [if_pos less]
  · rw [if_neg (lt_irrefl _)]

omit [Field K] in
theorem clamp_of_mem (least_le : least ≤ value) (le_greatest : value ≤ greatest) :
    clamp value least greatest = value := by
  rw [clamp, if_neg (not_lt.mpr least_le), if_neg (not_lt.mpr le_greatest)]

omit [Field K] in
theorem clamp_mem (range : least ≤ greatest) (value : K) :
    least ≤ clamp value least greatest ∧ clamp value least greatest ≤ greatest := by
  rcases le_total value least with below | above
  · rw [clamp_of_le below range]
    exact ⟨le_rfl, range⟩
  · rcases le_total value greatest with inside | beyond
    · rw [clamp_of_mem above inside]
      exact ⟨above, inside⟩
    · rw [clamp_of_ge beyond range]
      exact ⟨range, le_rfl⟩

omit [Field K] in
theorem clamp_eq_greatest_iff (range : least < greatest) :
    clamp value least greatest = greatest ↔ greatest ≤ value := by
  constructor
  · intro same
    by_contra below
    rcases le_total value least with outside | inside
    · rw [clamp_of_le outside range.le] at same
      exact absurd same range.ne
    · rw [clamp_of_mem inside (not_le.mp below).le] at same
      exact below same.ge
  · exact fun above => clamp_of_ge above range.le

omit [Field K] in
/-- Two values are clamped to one only outside the range, on one side. -/
theorem clamp_eq_clamp_iff (less : value < other) (range : least < greatest) :
    clamp value least greatest = clamp other least greatest ↔
      other ≤ least ∨ greatest ≤ value := by
  constructor
  · intro same
    by_contra apart
    rcases not_or.mp apart with ⟨otherAbove, valueBelow⟩
    have above := not_le.mp otherAbove
    have below := not_le.mp valueBelow
    have left : clamp value least greatest < clamp other least greatest := by
      rcases le_total value least with outside | inside
      · rw [clamp_of_le outside range.le]
        rcases le_total other greatest with within | beyond
        · rwa [clamp_of_mem above.le within]
        · rwa [clamp_of_ge beyond range.le]
      · rw [clamp_of_mem inside below.le]
        rcases le_total other greatest with within | beyond
        · rwa [clamp_of_mem above.le within]
        · rwa [clamp_of_ge beyond range.le]
    exact absurd same left.ne
  · rintro (below | above)
    · rw [clamp_of_le below range.le, clamp_of_le (less.le.trans below) range.le]
    · rw [clamp_of_ge above range.le, clamp_of_ge (above.trans less.le) range.le]

/-- Clamping finds the closest value of the range. -/
theorem closest_iff [IsStrictOrderedRing K] (range : least ≤ greatest) (value found : K) :
    (least ≤ found ∧ found ≤ greatest ∧
        ∀ z, least ≤ z → z ≤ greatest → |found - value| ≤ |z - value|) ↔
      found = clamp value least greatest := by
  constructor
  · rintro ⟨least_le, le_greatest, closest⟩
    rcases le_total value least with below | above
    · have closer := closest least le_rfl range
      rw [abs_of_nonneg (sub_nonneg.mpr (below.trans least_le)),
        abs_of_nonneg (sub_nonneg.mpr below)] at closer
      rw [clamp_of_le below range]
      exact le_antisymm (sub_le_sub_iff_right _ |>.mp closer) least_le
    · rcases le_total value greatest with inside | beyond
      · have closer := closest value above inside
        rw [sub_self, abs_zero] at closer
        rw [clamp_of_mem above inside]
        exact sub_eq_zero.mp (abs_eq_zero.mp (le_antisymm closer (abs_nonneg _)))
      · have closer := closest greatest range le_rfl
        rw [abs_of_nonpos (sub_nonpos.mpr (le_greatest.trans beyond)),
          abs_of_nonpos (sub_nonpos.mpr beyond)] at closer
        rw [clamp_of_ge beyond range]
        exact le_antisymm le_greatest (sub_le_sub_iff_right _ |>.mp (neg_le_neg_iff.mp closer))
  · rintro rfl
    rcases clamp_mem range value with ⟨least_le, le_greatest⟩
    refine ⟨least_le, le_greatest, fun z least_le le_greatest => ?_⟩
    rcases le_total value least with below | above
    · rw [clamp_of_le below range, abs_of_nonneg (sub_nonneg.mpr below)]
      exact (sub_le_sub_right least_le _).trans (le_abs_self _)
    · rcases le_total value greatest with inside | beyond
      · rw [clamp_of_mem above inside, sub_self, abs_zero]
        exact abs_nonneg _
      · rw [clamp_of_ge beyond range, abs_of_nonpos (sub_nonpos.mpr beyond)]
        exact (neg_le_neg (sub_le_sub_right le_greatest _)).trans (neg_le_abs _)

theorem clamp_neg [IsStrictOrderedRing K] (range : 0 ≤ greatest) :
    clamp (-value) (-greatest) 0 = -clamp value 0 greatest := by
  rcases le_total value 0 with below | above
  · rw [clamp_of_le below range, clamp_of_ge (neg_nonneg.mpr below) (neg_nonpos.mpr range), neg_zero]
  · rcases le_total value greatest with inside | beyond
    · rw [clamp_of_mem above inside, clamp_of_mem (neg_le_neg inside) (neg_nonpos.mpr above)]
    · rw [clamp_of_ge beyond range, clamp_of_le (neg_le_neg beyond) (neg_nonpos.mpr range)]

end Clamp

namespace UniformList

def contentHeight (self : UniformList K) : K :=
  self.itemHeight * self.itemCount

def listHeight (self : UniformList K) : K :=
  self.paddedBounds.size.height

def maxScrollOffset (self : UniformList K) : K :=
  max (self.contentHeight - self.listHeight) 0

/-- The scroll offset after scrolling to the item at some height of the content. -/
def scrolledOffset (self : UniformList K) (strategy : ScrollStrategy) (scrollStrict : Bool)
    (offset : Nat) (itemTop scrollOffset : K) : K :=
  let itemBottom := itemTop + self.itemHeight
  let scrollTop := -scrollOffset
  let offsetPixels := self.itemHeight * offset
  if scrollStrict = true ∨ itemTop < scrollTop + offsetPixels ∨
      scrollTop + self.listHeight < itemBottom then
    let strategy :=
      if strategy = .nearest then
        if itemTop < scrollTop + offsetPixels then .top
        else if scrollTop + self.listHeight < itemBottom then .bottom
        else strategy
      else strategy
    match strategy with
    | .top => -clamp (itemTop - offsetPixels) 0 self.maxScrollOffset
    -- The centers of the item and of the shrunk viewport.
    | .center => -clamp (itemTop + self.itemHeight / (2 : ℕ) -
        (offsetPixels + (self.listHeight - offsetPixels) / (2 : ℕ))) 0 self.maxScrollOffset
    | .bottom => -clamp (itemBottom - self.listHeight) 0 self.maxScrollOffset
    -- Nearest, but the item is visible.
    | .nearest => scrollOffset
  else scrollOffset

/-- The place that is scrolled to; `none` if the arithmetic of indices overflows. -/
def scrolledPlace (self : UniformList K) (itemIndex : UInt64) : Option Nat :=
  if self.yFlipped then
    if itemIndex.toNat + 1 < 2 ^ 64 then some (self.itemCount - (itemIndex.toNat + 1)) else none
  else some itemIndex.toNat

/-- Resolve a deferred scroll. -/
def resolve (self : UniformList K) (deferred : DeferredScrollToItem) (scrollOffset : K) :
    Option K :=
  if 0 < self.itemCount then do
    let itemIndex ← self.scrolledPlace deferred.itemIndex
    some (self.scrolledOffset deferred.strategy deferred.scrollStrict deferred.offset
      (self.itemHeight * itemIndex) scrollOffset)
  else some scrollOffset

/-! ## What scrolling to an item is for -/

/-- The top of the item asked for.  An index behind the last item asks for the last. -/
def targetTop (self : UniformList K) (deferred : DeferredScrollToItem) : K :=
  self.itemHeight * self.place (min deferred.itemIndex.toNat (self.itemCount - 1))

/-- By how much the viewport is shrunk from the top and from the bottom. -/
def insets (strategy : ScrollStrategy) (offsetPixels : K) : K × K :=
  match strategy with
  | .top => (offsetPixels, 0)
  | .center => (offsetPixels, 0)
  | .bottom => (0, offsetPixels)
  | .nearest => (offsetPixels, offsetPixels)

/-- The item is fully visible in the shrunk viewport. -/
def FullyVisible (self : UniformList K) (strategy : ScrollStrategy) (offset : Nat)
    (itemTop scrollOffset : K) : Prop :=
  -scrollOffset + (insets strategy (self.itemHeight * offset)).1 ≤ itemTop ∧
    itemTop + self.itemHeight ≤
      -scrollOffset + self.listHeight - (insets strategy (self.itemHeight * offset)).2

/-- The list is not to be scrolled. -/
def Remains (self : UniformList K) (strategy : ScrollStrategy) (scrollStrict : Bool)
    (offset : Nat) (itemTop scrollOffset : K) : Prop :=
  self.FullyVisible strategy offset itemTop scrollOffset ∧
    ¬ (scrollStrict = true ∧ strategy ≠ .nearest)

/-- The position of the viewport that puts the item where the strategy places it. -/
def idealTop (self : UniformList K) (strategy : ScrollStrategy) (offset : Nat)
    (itemTop scrollOffset : K) : K :=
  let offsetPixels := self.itemHeight * offset
  match strategy with
  | .top => itemTop - offsetPixels
  | .center => itemTop + self.itemHeight / (2 : ℕ) -
      (offsetPixels + (self.listHeight - offsetPixels) / (2 : ℕ))
  | .bottom => itemTop + self.itemHeight - (self.listHeight - offsetPixels)
  | .nearest =>
      if itemTop < -scrollOffset + offsetPixels then itemTop - offsetPixels
      else itemTop + self.itemHeight - (self.listHeight - offsetPixels)

/-- The offsets a list may have. -/
def InRange (self : UniformList K) (scrollOffset : K) : Prop :=
  -self.maxScrollOffset ≤ scrollOffset ∧ scrollOffset ≤ 0

/-- Nothing overflows, and the list remains where it is or comes as close as it can to where
the strategy places the item. -/
def Lands (self : UniformList K) (deferred : DeferredScrollToItem) (scrollOffset : K) : Prop :=
  ∃ after, self.resolve deferred scrollOffset = some after ∧ self.InRange after ∧
    (self.Remains deferred.strategy deferred.scrollStrict deferred.offset
      (self.targetTop deferred) scrollOffset → after = scrollOffset) ∧
    (¬ self.Remains deferred.strategy deferred.scrollStrict deferred.offset
        (self.targetTop deferred) scrollOffset →
      ∀ other, self.InRange other →
        |after - -self.idealTop deferred.strategy deferred.offset (self.targetTop deferred)
            scrollOffset| ≤
          |other - -self.idealTop deferred.strategy deferred.offset (self.targetTop deferred)
            scrollOffset|)

instance (self : UniformList K) (strategy : ScrollStrategy) (offset : Nat)
    (itemTop scrollOffset : K) :
    Decidable (self.FullyVisible strategy offset itemTop scrollOffset) :=
  inferInstanceAs (Decidable (_ ∧ _))

instance (self : UniformList K) (strategy : ScrollStrategy) (scrollStrict : Bool) (offset : Nat)
    (itemTop scrollOffset : K) :
    Decidable (self.Remains strategy scrollStrict offset itemTop scrollOffset) :=
  inferInstanceAs (Decidable (_ ∧ _))

/-! ## Where the code does so -/

/-- The index asked for is that of an item, or the list is flipped. -/
def Inside (self : UniformList K) (deferred : DeferredScrollToItem) : Prop :=
  deferred.itemIndex.toNat < self.itemCount ∨ self.yFlipped = true

/-- For an item that is to be placed at the bottom it makes no difference that the code looks
for it in the viewport shrunk from the top, and places it at the bottom of the whole one. -/
def BottomAgrees (self : UniformList K) (scrollStrict : Bool) (offset : Nat)
    (itemTop scrollOffset : K) : Prop :=
  let itemBottom := itemTop + self.itemHeight
  let offsetPixels := self.itemHeight * offset
  if self.Remains .bottom scrollStrict offset itemTop scrollOffset then
    -scrollOffset + offsetPixels ≤ itemTop ∨ scrollOffset = 0
  else if scrollStrict = false ∧ -scrollOffset + offsetPixels ≤ itemTop ∧
      itemBottom ≤ -scrollOffset + self.listHeight then
    -scrollOffset = self.maxScrollOffset
  else itemBottom + offsetPixels ≤ self.listHeight ∨ self.contentHeight ≤ itemBottom

/-- For an item that is to be placed at the nearest edge it makes no difference that the code
looks for it in the viewport shrunk from the top, and not from the bottom. -/
def NearestAgrees (self : UniformList K) (offset : Nat) (itemTop scrollOffset : K) : Prop :=
  let itemBottom := itemTop + self.itemHeight
  let offsetPixels := self.itemHeight * offset
  itemTop < -scrollOffset + offsetPixels ∨
    itemBottom + offsetPixels ≤ -scrollOffset + self.listHeight ∨
    itemBottom ≤ -scrollOffset + self.listHeight ∧ -scrollOffset = self.maxScrollOffset ∨
    self.contentHeight ≤ itemBottom

/-- The shrunk viewport has room for an item. -/
def Roomy (self : UniformList K) (offset : Nat) : Prop :=
  self.itemHeight * offset + self.itemHeight ≤ self.listHeight

/-- No index overflows; and the content fits the viewport, or the strategy is followed. -/
def Agrees (self : UniformList K) (deferred : DeferredScrollToItem) (scrollOffset : K) : Prop :=
  (self.itemCount = 0 ∨ self.yFlipped = false ∨ deferred.itemIndex.toNat + 1 < 2 ^ 64) ∧
    (self.contentHeight ≤ self.listHeight ∨
      match deferred.strategy with
      | .top => self.Inside deferred ∨ self.Roomy deferred.offset
      | .center => self.Inside deferred ∨ self.Roomy deferred.offset
      | .bottom => deferred.offset = 0 ∨
          self.BottomAgrees deferred.scrollStrict deferred.offset (self.targetTop deferred)
            scrollOffset
      | .nearest =>
          (deferred.offset = 0 ∨
            self.NearestAgrees deferred.offset (self.targetTop deferred) scrollOffset) ∧
          (self.Inside deferred ∨ self.Roomy deferred.offset ∨
            -scrollOffset + self.itemHeight * deferred.offset ≤ self.targetTop deferred))

/-- The offset that is expected. -/
def expectedOffset (self : UniformList K) (strategy : ScrollStrategy) (scrollStrict : Bool)
    (offset : Nat) (itemTop scrollOffset : K) : K :=
  if self.Remains strategy scrollStrict offset itemTop scrollOffset then scrollOffset
  else -clamp (self.idealTop strategy offset itemTop scrollOffset) 0 self.maxScrollOffset

variable [IsStrictOrderedRing K] {self : UniformList K} {scrollStrict : Bool} {offset : Nat}
  {itemTop scrollOffset : K}

omit [IsStrictOrderedRing K] in
theorem maxScrollOffset_nonneg (self : UniformList K) : 0 ≤ self.maxScrollOffset :=
  le_max_right _ _

theorem maxScrollOffset_eq (longer : self.listHeight < self.contentHeight) :
    self.maxScrollOffset = self.contentHeight - self.listHeight :=
  max_eq_left (sub_pos.mpr longer).le

theorem inRange_neg_clamp (target : K) :
    self.InRange (-clamp target 0 self.maxScrollOffset) := by
  rcases clamp_mem self.maxScrollOffset_nonneg target with ⟨first, last⟩
  exact ⟨neg_le_neg last, neg_nonpos.mpr first⟩

theorem lands_iff {deferred : DeferredScrollToItem} (range : self.InRange scrollOffset) :
    self.Lands deferred scrollOffset ↔
      self.resolve deferred scrollOffset = some (self.expectedOffset deferred.strategy
        deferred.scrollStrict deferred.offset (self.targetTop deferred) scrollOffset) := by
  have closest := closest_iff (neg_nonpos.mpr self.maxScrollOffset_nonneg)
    (-self.idealTop deferred.strategy deferred.offset (self.targetTop deferred) scrollOffset)
  rw [clamp_neg self.maxScrollOffset_nonneg] at closest
  rw [Lands, expectedOffset]
  by_cases remains : self.Remains deferred.strategy deferred.scrollStrict deferred.offset
    (self.targetTop deferred) scrollOffset
  · rw [if_pos remains]
    constructor
    · rintro ⟨after, resolves, -, stays, -⟩
      rw [resolves, stays remains]
    · intro resolves
      exact ⟨scrollOffset, resolves, range, fun _ => rfl, fun moves => absurd remains moves⟩
  · rw [if_neg remains]
    constructor
    · rintro ⟨after, resolves, inRange, -, moves⟩
      rw [resolves, (closest after).mp ⟨inRange.1, inRange.2, fun other first last =>
        moves remains other ⟨first, last⟩⟩]
    · intro resolves
      rcases (closest _).mpr rfl with ⟨first, last, nearest⟩
      exact ⟨_, resolves, ⟨first, last⟩, fun stays => absurd stays remains,
        fun _ other inRange => nearest other inRange.1 inRange.2⟩

/-! ## Items of the list -/

/-- The code scrolls the list. -/
def Moves (self : UniformList K) (scrollStrict : Bool) (offset : Nat)
    (itemTop scrollOffset : K) : Prop :=
  scrollStrict = true ∨ itemTop < -scrollOffset + self.itemHeight * offset ∨
    -scrollOffset + self.listHeight < itemTop + self.itemHeight

omit [IsStrictOrderedRing K] in
theorem not_moves_iff : ¬ self.Moves scrollStrict offset itemTop scrollOffset ↔
    scrollStrict = false ∧ -scrollOffset + self.itemHeight * offset ≤ itemTop ∧
      itemTop + self.itemHeight ≤ -scrollOffset + self.listHeight := by
  rw [Moves, not_or, not_or, Bool.not_eq_true, not_lt, not_lt]

omit [IsStrictOrderedRing K] in
theorem scrolledOffset_of_not_moves {strategy : ScrollStrategy}
    (still : ¬ self.Moves scrollStrict offset itemTop scrollOffset) :
    self.scrolledOffset strategy scrollStrict offset itemTop scrollOffset = scrollOffset :=
  if_neg still

omit [IsStrictOrderedRing K] in
theorem scrolledOffset_bottom (moves : self.Moves scrollStrict offset itemTop scrollOffset) :
    self.scrolledOffset .bottom scrollStrict offset itemTop scrollOffset =
      -clamp (itemTop + self.itemHeight - self.listHeight) 0 self.maxScrollOffset :=
  if_pos moves

omit [IsStrictOrderedRing K] in
/-- Where the viewport is shrunk from the top and the item is placed as it is to be, the code
scrolls the list as it is to be scrolled. -/
theorem scrolledOffset_fromTop {strategy : ScrollStrategy} (notNearest : strategy ≠ .nearest)
    (fromTop : insets strategy (self.itemHeight * offset) = (self.itemHeight * offset, 0))
    (placed : self.Moves scrollStrict offset itemTop scrollOffset →
      self.scrolledOffset strategy scrollStrict offset itemTop scrollOffset =
        -clamp (self.idealTop strategy offset itemTop scrollOffset) 0 self.maxScrollOffset) :
    self.scrolledOffset strategy scrollStrict offset itemTop scrollOffset =
      self.expectedOffset strategy scrollStrict offset itemTop scrollOffset := by
  have remains_iff : self.Remains strategy scrollStrict offset itemTop scrollOffset ↔
      (-scrollOffset + self.itemHeight * offset ≤ itemTop ∧
        itemTop + self.itemHeight ≤ -scrollOffset + self.listHeight) ∧
        ¬ (scrollStrict = true ∧ strategy ≠ .nearest) := by
    rw [Remains, FullyVisible, fromTop, sub_zero]
  rw [expectedOffset]
  by_cases moves : self.Moves scrollStrict offset itemTop scrollOffset
  · rw [if_neg, placed moves]
    intro remains
    rcases remains_iff.mp remains with ⟨visible, lax⟩
    apply not_moves_iff.2 _ moves
    exact ⟨Bool.eq_false_of_not_eq_true fun strict => lax ⟨strict, notNearest⟩, visible⟩
  · rcases not_moves_iff.1 moves with ⟨lax, visible⟩
    rw [if_pos, scrolledOffset_of_not_moves moves]
    exact remains_iff.mpr
      ⟨visible, fun strict => Bool.false_ne_true (lax.symm.trans strict.1)⟩

omit [IsStrictOrderedRing K] in
theorem scrolledOffset_top :
    self.scrolledOffset .top scrollStrict offset itemTop scrollOffset =
      self.expectedOffset .top scrollStrict offset itemTop scrollOffset :=
  scrolledOffset_fromTop (by decide) rfl fun moves => if_pos moves

omit [IsStrictOrderedRing K] in
theorem scrolledOffset_center :
    self.scrolledOffset .center scrollStrict offset itemTop scrollOffset =
      self.expectedOffset .center scrollStrict offset itemTop scrollOffset :=
  scrolledOffset_fromTop (by decide) rfl fun moves => if_pos moves

omit [IsStrictOrderedRing K] in
/-- Without an offset the bottom is treated as the top is. -/
theorem scrolledOffset_bottom_zero :
    self.scrolledOffset .bottom scrollStrict 0 itemTop scrollOffset =
      self.expectedOffset .bottom scrollStrict 0 itemTop scrollOffset := by
  have zero : self.itemHeight * ((0 : ℕ) : K) = 0 := by
    rw [Nat.cast_zero, mul_zero]
  apply scrolledOffset_fromTop (by decide)
  · rw [zero]
    rfl
  · intro moves
    rw [scrolledOffset_bottom moves, idealTop, zero, sub_zero]

omit [IsStrictOrderedRing K] in
theorem scrolledOffset_nearest_above
    (above : itemTop < -scrollOffset + self.itemHeight * offset) :
    self.scrolledOffset .nearest scrollStrict offset itemTop scrollOffset =
      -clamp (itemTop - self.itemHeight * offset) 0 self.maxScrollOffset := by
  simp [scrolledOffset, above]

omit [IsStrictOrderedRing K] in
theorem scrolledOffset_nearest_below
    (notAbove : ¬ itemTop < -scrollOffset + self.itemHeight * offset)
    (below : -scrollOffset + self.listHeight < itemTop + self.itemHeight) :
    self.scrolledOffset .nearest scrollStrict offset itemTop scrollOffset =
      -clamp (itemTop + self.itemHeight - self.listHeight) 0 self.maxScrollOffset := by
  simp only [scrolledOffset, notAbove, below, or_true, if_true, if_false]

omit [IsStrictOrderedRing K] in
theorem scrolledOffset_nearest_visible
    (notAbove : ¬ itemTop < -scrollOffset + self.itemHeight * offset)
    (notBelow : ¬ -scrollOffset + self.listHeight < itemTop + self.itemHeight) :
    self.scrolledOffset .nearest scrollStrict offset itemTop scrollOffset = scrollOffset := by
  simp only [scrolledOffset, notAbove, notBelow, if_false, ite_self]

section Longer

variable (longer : self.listHeight < self.contentHeight) (range : self.InRange scrollOffset)

include longer

theorem maxScrollOffset_pos : 0 < self.maxScrollOffset := by
  rw [maxScrollOffset_eq longer]
  exact sub_pos.mpr longer

/-- Two positions of the viewport are clamped to one only behind an end of the list. -/
theorem neg_clamp_eq_iff {first second : K} (less : first < second) :
    -clamp first 0 self.maxScrollOffset = -clamp second 0 self.maxScrollOffset ↔
      second ≤ 0 ∨ self.maxScrollOffset ≤ first := by
  rw [neg_inj, clamp_eq_clamp_iff less (maxScrollOffset_pos longer)]

include range

theorem neg_clamp_eq_offset_of_lt {target : K} (less : target < -scrollOffset) :
    -clamp target 0 self.maxScrollOffset = scrollOffset ↔ scrollOffset = 0 := by
  have here : -clamp (-scrollOffset) 0 self.maxScrollOffset = scrollOffset := by
    rw [clamp_of_mem (neg_nonneg.mpr range.2) (neg_le.mp range.1), neg_neg]
  rw [← here, neg_clamp_eq_iff longer less, here]
  constructor
  · rintro (first | last)
    · exact le_antisymm range.2 (neg_nonpos.mp first)
    · exact absurd (neg_le.mp range.1) (not_le_of_gt (last.trans_lt less))
  · rintro rfl
    exact Or.inl neg_zero.le

theorem offset_eq_neg_clamp_of_lt {target : K} (less : -scrollOffset < target) :
    scrollOffset = -clamp target 0 self.maxScrollOffset ↔
      -scrollOffset = self.maxScrollOffset := by
  have here : -clamp (-scrollOffset) 0 self.maxScrollOffset = scrollOffset := by
    rw [clamp_of_mem (neg_nonneg.mpr range.2) (neg_le.mp range.1), neg_neg]
  have apart := neg_clamp_eq_iff longer less
  rw [here] at apart
  rw [apart]
  constructor
  · rintro (first | last)
    · exact absurd (neg_nonneg.mpr range.2) (not_le_of_gt (less.trans_le first))
    · exact le_antisymm (neg_le.mp range.1) last
  · intro last
    exact Or.inr last.ge

theorem scrolledOffset_bottom_iff (positive : 0 < self.itemHeight * offset) :
    self.scrolledOffset .bottom scrollStrict offset itemTop scrollOffset =
        self.expectedOffset .bottom scrollStrict offset itemTop scrollOffset ↔
      self.BottomAgrees scrollStrict offset itemTop scrollOffset := by
  have lower : itemTop + self.itemHeight - self.listHeight <
      itemTop + self.itemHeight - (self.listHeight - self.itemHeight * offset) := by
    linarith
  rw [expectedOffset, BottomAgrees]
  by_cases remains : self.Remains .bottom scrollStrict offset itemTop scrollOffset
  · rw [if_pos remains, if_pos remains]
    rcases remains with ⟨⟨below, above⟩, lax⟩
    change -scrollOffset + 0 ≤ itemTop at below
    change itemTop + self.itemHeight ≤
      -scrollOffset + self.listHeight - self.itemHeight * offset at above
    have notStrict : scrollStrict = false :=
      Bool.eq_false_of_not_eq_true fun strict => lax ⟨strict, by decide⟩
    by_cases clear : -scrollOffset + self.itemHeight * offset ≤ itemTop
    · have still : ¬ self.Moves scrollStrict offset itemTop scrollOffset :=
        not_moves_iff.2 ⟨notStrict, clear, by linarith⟩
      exact iff_of_true (scrolledOffset_of_not_moves still) (Or.inl clear)
    · have moves : self.Moves scrollStrict offset itemTop scrollOffset :=
        Or.inr (Or.inl (not_le.mp clear))
      rw [scrolledOffset_bottom moves, neg_clamp_eq_offset_of_lt longer range (by linarith),
        or_iff_right clear]
  · rw [if_neg remains, if_neg remains]
    by_cases moves : self.Moves scrollStrict offset itemTop scrollOffset
    · rw [if_neg fun still => not_moves_iff.2 still moves, scrolledOffset_bottom moves, idealTop,
        neg_clamp_eq_iff longer lower, maxScrollOffset_eq longer]
      constructor
      · rintro (first | last)
        · exact Or.inl (by linarith)
        · exact Or.inr (by linarith)
      · rintro (first | last)
        · exact Or.inl (by linarith)
        · exact Or.inr (by linarith)
    · rw [if_pos (not_moves_iff.1 moves), scrolledOffset_of_not_moves moves, idealTop]
      rcases not_moves_iff.1 moves with ⟨notStrict, clear, above⟩
      -- The item is in the viewport, but not in the part that is left at the bottom.
      have hidden : -scrollOffset + self.listHeight - self.itemHeight * offset <
          itemTop + self.itemHeight := by
        by_contra visible
        apply remains
        refine ⟨⟨?_, not_lt.mp visible⟩, fun strict => ?_⟩
        · change -scrollOffset + 0 ≤ itemTop
          linarith
        · exact Bool.false_ne_true (notStrict.symm.trans strict.1)
      exact offset_eq_neg_clamp_of_lt longer range (by linarith)

theorem scrolledOffset_nearest_iff (positive : 0 < self.itemHeight) :
    self.scrolledOffset .nearest scrollStrict offset itemTop scrollOffset =
        self.expectedOffset .nearest scrollStrict offset itemTop scrollOffset ↔
      offset = 0 ∨ self.NearestAgrees offset itemTop scrollOffset := by
  have nonneg : 0 ≤ self.itemHeight * offset := mul_nonneg positive.le offset.cast_nonneg
  have remains_iff : self.Remains .nearest scrollStrict offset itemTop scrollOffset ↔
      -scrollOffset + self.itemHeight * offset ≤ itemTop ∧
        itemTop + self.itemHeight ≤
          -scrollOffset + self.listHeight - self.itemHeight * offset :=
    and_iff_left fun strict => strict.2 rfl
  rw [expectedOffset, NearestAgrees]
  by_cases above : itemTop < -scrollOffset + self.itemHeight * offset
  · have moves : ¬ self.Remains .nearest scrollStrict offset itemTop scrollOffset :=
      fun remains => not_le_of_gt above (remains_iff.mp remains).1
    rw [if_neg moves, scrolledOffset_nearest_above above, idealTop, if_pos above]
    exact iff_of_true rfl (Or.inr (Or.inl above))
  · have clear := not_lt.mp above
    by_cases below : -scrollOffset + self.listHeight < itemTop + self.itemHeight
    · have moves : ¬ self.Remains .nearest scrollStrict offset itemTop scrollOffset := by
        intro remains
        have visible := (remains_iff.mp remains).2
        linarith
      rw [if_neg moves, scrolledOffset_nearest_below above below, idealTop, if_neg above]
      rcases Nat.eq_zero_or_pos offset with rfl | some
      · rw [Nat.cast_zero, mul_zero, sub_zero]
        exact iff_of_true rfl (Or.inl rfl)
      · have shrinks : 0 < self.itemHeight * offset := mul_pos positive (Nat.cast_pos.mpr some)
        rw [neg_clamp_eq_iff longer (by linarith), maxScrollOffset_eq longer]
        have start := neg_nonneg.mpr range.2
        constructor
        · rintro (first | last)
          · linarith
          · exact Or.inr (Or.inr (Or.inr (Or.inr (by linarith))))
        · rintro (none | above | visible | ⟨visible, -⟩ | last)
          · exact absurd none some.ne'
          · linarith
          · linarith
          · linarith
          · exact Or.inr (by linarith)
    · rw [scrolledOffset_nearest_visible above below]
      by_cases visible : itemTop + self.itemHeight ≤
          -scrollOffset + self.listHeight - self.itemHeight * offset
      · rw [if_pos (remains_iff.mpr ⟨clear, visible⟩)]
        exact iff_of_true rfl (Or.inr (Or.inr (Or.inl (by linarith))))
      · have hidden := not_le.mp visible
        have inside := not_lt.mp below
        rw [if_neg fun remains => visible (remains_iff.mp remains).2, idealTop, if_neg above,
          offset_eq_neg_clamp_of_lt longer range (by linarith)]
        constructor
        · intro last
          exact Or.inr (Or.inr (Or.inr (Or.inl ⟨inside, last⟩)))
        · rintro (rfl | above | visible | ⟨-, last⟩ | last)
          · rw [Nat.cast_zero, mul_zero] at hidden
            linarith
          · linarith
          · linarith
          · exact last
          · apply le_antisymm (neg_le.mp range.1)
            rw [maxScrollOffset_eq longer]
            linarith

/-! ## Indices behind the last item -/

/-- An item behind the last scrolls the list to its end. -/
theorem scrolledOffset_beyond (room : self.itemHeight * offset ≤ self.listHeight)
    (positive : 0 < self.itemHeight) (beyond : self.contentHeight ≤ itemTop)
    (strategy : ScrollStrategy) :
    self.scrolledOffset strategy scrollStrict offset itemTop scrollOffset =
      -self.maxScrollOffset := by
  have nonneg : 0 ≤ self.itemHeight * offset := mul_nonneg positive.le offset.cast_nonneg
  have last := maxScrollOffset_eq longer
  have inside := neg_le.mp range.1
  have below : -scrollOffset + self.listHeight < itemTop + self.itemHeight := by linarith
  have notAbove : ¬ itemTop < -scrollOffset + self.itemHeight * offset := by
    apply not_lt.mpr
    linarith
  have moves : self.Moves scrollStrict offset itemTop scrollOffset := Or.inr (Or.inr below)
  have atEnd : ∀ target : K, self.maxScrollOffset ≤ target →
      -clamp target 0 self.maxScrollOffset = -self.maxScrollOffset := fun target behind => by
    rw [clamp_of_ge behind self.maxScrollOffset_nonneg]
  cases strategy with
  | top => exact (if_pos moves).trans (atEnd _ (by linarith))
  | center =>
      apply (if_pos moves).trans (atEnd _ _)
      rw [Nat.cast_ofNat]
      linarith
  | bottom => exact (if_pos moves).trans (atEnd _ (by linarith))
  | nearest =>
      rw [scrolledOffset_nearest_below notAbove below]
      exact atEnd _ (by linarith)

theorem expectedOffset_last_iff {strategy : ScrollStrategy} (positive : 0 < self.itemHeight)
    (isLast : itemTop + self.itemHeight = self.contentHeight) :
    -self.maxScrollOffset =
        self.expectedOffset strategy scrollStrict offset itemTop scrollOffset ↔
      match strategy with
      | .top => self.Roomy offset
      | .center => self.Roomy offset
      | .bottom => True
      | .nearest => self.Roomy offset ∨ -scrollOffset + self.itemHeight * offset ≤ itemTop := by
  have nonneg : 0 ≤ self.itemHeight * offset := mul_nonneg positive.le offset.cast_nonneg
  have last := maxScrollOffset_eq longer
  have inside := neg_le.mp range.1
  have atEnd : ∀ target : K, -self.maxScrollOffset = -clamp target 0 self.maxScrollOffset ↔
      self.maxScrollOffset ≤ target := fun target => by
    rw [neg_inj, eq_comm, clamp_eq_greatest_iff (maxScrollOffset_pos longer)]
  rw [expectedOffset]
  by_cases remains : self.Remains strategy scrollStrict offset itemTop scrollOffset
  · rw [if_pos remains]
    rcases remains with ⟨⟨below, above⟩, -⟩
    have shrinks : 0 ≤ (insets strategy (self.itemHeight * offset)).2 := by
      cases strategy with
      | top => exact le_rfl
      | center => exact le_rfl
      | bottom => exact nonneg
      | nearest => exact nonneg
    have isEnd : -self.maxScrollOffset = scrollOffset := le_antisymm range.1 (by linarith)
    apply iff_of_true isEnd
    cases strategy with
    | top =>
        change -scrollOffset + self.itemHeight * offset ≤ itemTop at below
        rw [Roomy]
        linarith
    | center =>
        change -scrollOffset + self.itemHeight * offset ≤ itemTop at below
        rw [Roomy]
        linarith
    | bottom => trivial
    | nearest => exact Or.inr below
  · rw [if_neg remains, atEnd, Roomy]
    cases strategy with
    | top =>
        constructor
        · intro behind
          change self.maxScrollOffset ≤ itemTop - self.itemHeight * offset at behind
          linarith
        · intro roomy
          change self.maxScrollOffset ≤ itemTop - self.itemHeight * offset
          linarith
    | center =>
        rw [idealTop, Nat.cast_ofNat]
        constructor
        · intro behind
          linarith
        · intro roomy
          linarith
    | bottom =>
        apply iff_of_true _ trivial
        rw [idealTop]
        linarith
    | nearest =>
        rw [idealTop]
        by_cases above : itemTop < -scrollOffset + self.itemHeight * offset
        · rw [if_pos above, or_iff_left (not_le_of_gt above)]
          constructor
          · intro behind
            linarith
          · intro roomy
            linarith
        · rw [if_neg above]
          apply iff_of_true _ (Or.inr (not_lt.mp above))
          linarith

end Longer

/-! ## Every index -/

theorem scrolledOffset_inRange (range : self.InRange scrollOffset) (strategy : ScrollStrategy) :
    self.InRange (self.scrolledOffset strategy scrollStrict offset itemTop scrollOffset) := by
  by_cases moves : self.Moves scrollStrict offset itemTop scrollOffset
  · cases strategy with
    | top =>
        rw [scrolledOffset_top, expectedOffset]
        split
        · exact range
        · exact inRange_neg_clamp _
    | center =>
        rw [scrolledOffset_center, expectedOffset]
        split
        · exact range
        · exact inRange_neg_clamp _
    | bottom =>
        rw [scrolledOffset_bottom moves]
        exact inRange_neg_clamp _
    | nearest =>
        by_cases above : itemTop < -scrollOffset + self.itemHeight * offset
        · rw [scrolledOffset_nearest_above above]
          exact inRange_neg_clamp _
        · by_cases below : -scrollOffset + self.listHeight < itemTop + self.itemHeight
          · rw [scrolledOffset_nearest_below above below]
            exact inRange_neg_clamp _
          · rw [scrolledOffset_nearest_visible above below]
            exact range
  · rw [scrolledOffset_of_not_moves moves]
    exact range

theorem expectedOffset_inRange (range : self.InRange scrollOffset) (strategy : ScrollStrategy) :
    self.InRange (self.expectedOffset strategy scrollStrict offset itemTop scrollOffset) := by
  rw [expectedOffset]
  split
  · exact range
  · exact inRange_neg_clamp _

/-- A list that fits the viewport has one offset. -/
theorem InRange.eq_zero (fits : self.contentHeight ≤ self.listHeight)
    (range : self.InRange scrollOffset) : scrollOffset = 0 := by
  have none : self.maxScrollOffset = 0 := max_eq_right (sub_nonpos.mpr fits)
  rcases range with ⟨first, last⟩
  rw [none, neg_zero] at first
  exact le_antisymm last first

/-- The place that the code scrolls to is that of the item asked for, unless the index is
behind the last item of a list that is not flipped. -/
theorem scrolledPlace_cases {deferred : DeferredScrollToItem} (positive : 0 < self.itemHeight)
    (nonempty : 0 < self.itemCount) {itemIndex : Nat}
    (place : self.scrolledPlace deferred.itemIndex = some itemIndex) :
    self.Inside deferred ∧ self.itemHeight * itemIndex = self.targetTop deferred ∧
        self.targetTop deferred + self.itemHeight ≤ self.contentHeight ∨
      ¬ self.Inside deferred ∧ self.contentHeight ≤ self.itemHeight * itemIndex ∧
        self.targetTop deferred + self.itemHeight = self.contentHeight := by
  have target : min deferred.itemIndex.toNat (self.itemCount - 1) < self.itemCount := by
    omega
  have within : self.targetTop deferred + self.itemHeight ≤ self.contentHeight := by
    have isPlace : ((self.place (min deferred.itemIndex.toNat (self.itemCount - 1)) + 1 : ℕ) : K) ≤
        self.itemCount := Nat.cast_le.mpr (place_lt target)
    rw [targetTop, contentHeight, ← mul_add_one, ← Nat.cast_succ]
    exact mul_le_mul_of_nonneg_left isPlace positive.le
  rw [scrolledPlace] at place
  by_cases flipped : self.yFlipped
  · rw [if_pos flipped] at place
    rcases Option.ite_none_right_eq_some.mp place with ⟨-, same⟩
    refine Or.inl ⟨Or.inr flipped, ?_, within⟩
    have samePlace : itemIndex =
        self.itemCount - (min deferred.itemIndex.toNat (self.itemCount - 1) + 1) := by
      rw [← Option.some.inj same]
      omega
    rw [targetTop, UniformList.place, if_pos flipped, samePlace]
  · rw [if_neg flipped] at place
    rcases Option.some.inj place with rfl
    have unflipped : ∀ ix, self.place ix = ix := fun ix => if_neg flipped
    by_cases isItem : deferred.itemIndex.toNat < self.itemCount
    · refine Or.inl ⟨Or.inl isItem, ?_, within⟩
      rw [targetTop, unflipped, min_eq_left (Nat.le_sub_one_of_lt isItem)]
    · have behind := not_lt.mp isItem
      refine Or.inr ⟨not_or.mpr ⟨isItem, flipped⟩, ?_, ?_⟩
      · exact mul_le_mul_of_nonneg_left (Nat.cast_le.mpr behind) positive.le
      · rw [targetTop, unflipped, min_eq_right ((Nat.sub_le _ _).trans behind), contentHeight,
          ← mul_add_one, ← Nat.cast_succ, Nat.succ_eq_add_one, Nat.sub_add_cancel nonempty]

/-- For an item that the list has, and the code finds, the strategies differ. -/
theorem scrolledOffset_inside_iff (longer : self.listHeight < self.contentHeight)
    (range : self.InRange scrollOffset) (positive : 0 < self.itemHeight)
    (strategy : ScrollStrategy) :
    self.scrolledOffset strategy scrollStrict offset itemTop scrollOffset =
        self.expectedOffset strategy scrollStrict offset itemTop scrollOffset ↔
      match strategy with
      | .top => True
      | .center => True
      | .bottom => offset = 0 ∨ self.BottomAgrees scrollStrict offset itemTop scrollOffset
      | .nearest => offset = 0 ∨ self.NearestAgrees offset itemTop scrollOffset := by
  cases strategy with
  | top => exact iff_of_true scrolledOffset_top trivial
  | center => exact iff_of_true scrolledOffset_center trivial
  | bottom =>
      rcases Nat.eq_zero_or_pos offset with rfl | some
      · exact iff_of_true scrolledOffset_bottom_zero (Or.inl rfl)
      · rw [scrolledOffset_bottom_iff longer range (mul_pos positive (Nat.cast_pos.mpr some))]
        exact (or_iff_right some.ne').symm
  | nearest => exact scrolledOffset_nearest_iff longer range positive

/-- For the last item nothing depends on the offset of the bottom. -/
theorem bottomAgrees_last (longer : self.listHeight < self.contentHeight)
    (range : self.InRange scrollOffset) (positive : 0 < self.itemHeight)
    (isLast : itemTop + self.itemHeight = self.contentHeight) :
    offset = 0 ∨ self.BottomAgrees scrollStrict offset itemTop scrollOffset := by
  rcases Nat.eq_zero_or_pos offset with none | some
  · exact Or.inl none
  · have shrinks := mul_pos positive (Nat.cast_pos (α := K) |>.mpr some)
    have last := maxScrollOffset_eq longer
    have inside := neg_le.mp range.1
    apply Or.inr
    rw [BottomAgrees]
    by_cases remains : self.Remains .bottom scrollStrict offset itemTop scrollOffset
    · rcases remains with ⟨⟨-, above⟩, -⟩
      change itemTop + self.itemHeight ≤
        -scrollOffset + self.listHeight - self.itemHeight * offset at above
      linarith
    · rw [if_neg remains]
      split
      · next visible =>
          rcases visible with ⟨-, -, above⟩
          linarith
      · exact Or.inr isLast.ge

/-- Scrolling to an item lands where it is documented to exactly if the code's treatment of the
index and of the offset makes no difference. -/
theorem resolve_lands_iff {deferred : DeferredScrollToItem} (positive : 0 < self.itemHeight)
    (room : self.itemHeight * deferred.offset ≤ self.listHeight)
    (range : self.InRange scrollOffset) :
    self.Lands deferred scrollOffset ↔ self.Agrees deferred scrollOffset := by
  rw [lands_iff range, resolve, Agrees]
  rcases Nat.eq_zero_or_pos self.itemCount with empty | nonempty
  · have fits : self.contentHeight ≤ self.listHeight := by
      rw [contentHeight, empty, Nat.cast_zero, mul_zero]
      exact (mul_nonneg positive.le (Nat.cast_nonneg _)).trans room
    rw [if_neg (by rw [empty]; exact lt_irrefl 0)]
    apply iff_of_true
    · rw [range.eq_zero fits, (expectedOffset_inRange (range.eq_zero fits ▸ range) _).eq_zero fits]
    · exact ⟨Or.inl empty, Or.inl fits⟩
  · rw [if_pos nonempty]
    cases place : self.scrolledPlace deferred.itemIndex with
    | none =>
        rw [scrolledPlace] at place
        by_cases flipped : self.yFlipped
        · rw [if_pos flipped, ite_eq_right_iff] at place
          apply iff_of_false
          · rintro ⟨⟩
          · rintro ⟨empty | unflipped | small, -⟩
            · exact nonempty.ne' empty
            · exact Bool.false_ne_true (unflipped.symm.trans flipped)
            · cases place small
        · rw [if_neg flipped] at place
          cases place
    | some itemIndex =>
        have noOverflow : self.itemCount = 0 ∨ self.yFlipped = false ∨
            deferred.itemIndex.toNat + 1 < 2 ^ 64 := by
          rw [scrolledPlace] at place
          by_cases flipped : self.yFlipped
          · rw [if_pos flipped] at place
            exact Or.inr (Or.inr (Option.ite_none_right_eq_some.mp place).1)
          · exact Or.inr (Or.inl (Bool.eq_false_of_not_eq_true flipped))
        rw [and_iff_right noOverflow]
        change some _ = some _ ↔ _
        rw [Option.some_inj]
        by_cases fits : self.contentHeight ≤ self.listHeight
        · apply iff_of_true _ (Or.inl fits)
          rw [(scrolledOffset_inRange range _).eq_zero fits,
            (expectedOffset_inRange range _).eq_zero fits]
        · have longer := not_le.mp fits
          rw [or_iff_right fits]
          rcases scrolledPlace_cases positive nonempty place with
            ⟨inside, same, -⟩ | ⟨outside, beyond, isLast⟩
          · rw [same, scrolledOffset_inside_iff longer range positive]
            cases deferred.strategy with
            | top => exact iff_of_true trivial (Or.inl inside)
            | center => exact iff_of_true trivial (Or.inl inside)
            | bottom => exact Iff.rfl
            | nearest => exact (and_iff_left (Or.inl inside)).symm
          · rw [scrolledOffset_beyond longer range room positive beyond,
              expectedOffset_last_iff longer range positive isLast]
            cases deferred.strategy with
            | top => exact (or_iff_right outside).symm
            | center => exact (or_iff_right outside).symm
            | bottom =>
                exact iff_of_true trivial (bottomAgrees_last longer range positive isLast)
            | nearest =>
                have agrees : self.NearestAgrees deferred.offset (self.targetTop deferred)
                    scrollOffset := Or.inr (Or.inr (Or.inr isLast.ge))
                change _ ↔ (_ ∨ _) ∧ (_ ∨ _)
                rw [and_iff_right (Or.inr agrees), or_iff_right outside]

/-- A list of ten items in a viewport of four scrolls to the sixth. -/
theorem resolve_lands_iff_sixth :
    (⟨10, 10, false, ⟨⟨0, 0⟩, ⟨50, 40⟩⟩, ⟨0, 0, 0, 0⟩, ⟨0, 0, 0, 0⟩⟩ : UniformList ℚ).Lands
      ⟨5, .bottom, 0, false⟩ 0 := by
  apply (resolve_lands_iff _ _ _).mpr
  · exact ⟨Or.inr (Or.inl rfl), Or.inr (Or.inl rfl)⟩
  · decide +kernel
  · decide +kernel
  · constructor <;> decide +kernel

/-- With an offset the sixth item does not come to the bottom of the shrunk viewport, and
`scroll_to_bottom` overflows on a flipped list. -/
theorem not_resolve_lands :
    ¬ (⟨10, 10, false, ⟨⟨0, 0⟩, ⟨50, 40⟩⟩, ⟨0, 0, 0, 0⟩, ⟨0, 0, 0, 0⟩⟩ : UniformList ℚ).Lands
        ⟨5, .bottom, 1, true⟩ 0 ∧
      ¬ (⟨10, 10, true, ⟨⟨0, 0⟩, ⟨50, 40⟩⟩, ⟨0, 0, 0, 0⟩, ⟨0, 0, 0, 0⟩⟩ : UniformList ℚ).Lands
        ⟨18446744073709551615, .bottom, 0, false⟩ 0 := by
  constructor
  · rw [lands_iff (by constructor <;> decide +kernel)]
    decide +kernel
  · rw [lands_iff (by constructor <;> decide +kernel)]
    decide +kernel

/-! ## The offset before -/

/-- How far the interactivity of the list lets it scroll; `round` rounds to two decimals. -/
def scrollMax (self : UniformList K) (round : K → K) : K :=
  max (round (self.contentHeight + (self.padding.top + self.padding.bottom) -
    self.bounds.size.height)) 0

/-- The offset that a deferred scroll finds. -/
def currentOffset (self : UniformList K) (round : K → K) (scrollOffset : K) : K :=
  let scrollOffset := clamp scrollOffset (-self.scrollMax round) 0
  if 0 < self.itemCount ∧ scrollOffset ≠ 0 ∧
      scrollOffset < self.listHeight - self.contentHeight then
    self.listHeight - self.contentHeight
  else scrollOffset

/-- A deferred scroll finds an offset in the range. -/
theorem currentOffset_inRange {round : K → K} (nonpos : ∀ x ≤ 0, round x ≤ 0)
    (border : 0 ≤ self.border.top + self.border.bottom) (viewport : 0 ≤ self.listHeight) :
    self.InRange (self.currentOffset round scrollOffset) := by
  have range : -self.scrollMax round ≤ 0 := neg_nonpos.mpr (le_max_right _ _)
  rcases clamp_mem range scrollOffset with ⟨first, last⟩
  have listHeight : self.listHeight = self.bounds.size.height -
      (self.border.top + self.padding.top) - (self.border.bottom + self.padding.bottom) := by
    simp only [UniformList.listHeight, paddedBounds, Bounds.fromCorners, Bounds.bottomRight,
      Point.add, Point.sub]
    ring
  rw [currentOffset]
  by_cases fits : self.contentHeight ≤ self.listHeight
  · -- Nothing can be scrolled.
    have none : self.scrollMax round = 0 := max_eq_right (nonpos _ (by linarith))
    have zero : clamp scrollOffset (-self.scrollMax round) 0 = 0 :=
      le_antisymm last (by rw [none, neg_zero] at first ⊢; exact first)
    simp only [zero, ne_eq, not_true_eq_false, false_and, and_false, if_false]
    exact ⟨neg_nonpos.mpr self.maxScrollOffset_nonneg, le_rfl⟩
  · have longer := not_le.mp fits
    have isMax := maxScrollOffset_eq longer
    have some : 0 < self.itemCount := by
      apply Nat.pos_of_ne_zero
      intro empty
      rw [contentHeight, empty, Nat.cast_zero, mul_zero] at longer
      exact not_le_of_gt longer viewport
    by_cases beyond : clamp scrollOffset (-self.scrollMax round) 0 ≠ 0 ∧
        clamp scrollOffset (-self.scrollMax round) 0 < self.listHeight - self.contentHeight
    · simp only [if_pos (And.intro some beyond)]
      exact ⟨by rw [isMax]; linarith, by linarith⟩
    · simp only [if_neg fun all : 0 < self.itemCount ∧ _ => beyond all.2]
      refine ⟨?_, last⟩
      rw [isMax]
      rcases not_and_or.mp beyond with zero | within
      · rw [not_not.mp zero]
        linarith
      · have within := not_lt.mp within
        linarith

end UniformList

end Gpui
