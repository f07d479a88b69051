import Mathlib

/-!
# Points, sizes and rectangles

`Point`, `Size` and `Bounds` over an arbitrary coordinate type.  Coordinates
are exact: the operations are those of a linearly ordered field, so no
comparison or addition rounds.

`Covers` is the containment order on rectangles.  It is stated on corners, so
it also makes sense for rectangles of negative size, for which `intersects` is
still monotone.
-/

namespace Gpui

structure Point (K : Type) where
  x : K
  y : K
deriving DecidableEq, Repr

structure Size (K : Type) where
  width : K
  height : K
deriving DecidableEq, Repr

structure Bounds (K : Type) where
  origin : Point K
  size : Size K
deriving DecidableEq, Repr

variable {K : Type} [Field K] [LinearOrder K]

namespace Point

def max (self other : Point K) : Point K where
  x := if self.x > other.x then self.x else other.x
  y := if self.y > other.y then self.y else other.y

def min (self other : Point K) : Point K where
  x := if self.x ≤ other.x then self.x else other.x
  y := if self.y ≤ other.y then self.y else other.y

def add (self other : Point K) : Point K :=
  ⟨self.x + other.x, self.y + other.y⟩

def sub (self other : Point K) : Point K :=
  ⟨self.x - other.x, self.y - other.y⟩

def scale (self : Point K) (factor : K) : Point K :=
  ⟨self.x * factor, self.y * factor⟩

omit [Field K] in
@[simp]
theorem max_x (self other : Point K) : (self.max other).x = Max.max self.x other.x := by
  simp only [max]
  split
  · exact (max_eq_left_of_lt ‹_›).symm
  · exact (max_eq_right (not_lt.mp ‹_›)).symm

omit [Field K] in
@[simp]
theorem max_y (self other : Point K) : (self.max other).y = Max.max self.y other.y := by
  simp only [max]
  split
  · exact (max_eq_left_of_lt ‹_›).symm
  · exact (max_eq_right (not_lt.mp ‹_›)).symm

omit [Field K] in
@[simp]
theorem min_x (self other : Point K) : (self.min other).x = Min.min self.x other.x :=
  (min_def _ _).symm

omit [Field K] in
@[simp]
theorem min_y (self other : Point K) : (self.min other).y = Min.min self.y other.y :=
  (min_def _ _).symm

end Point

def Size.scale (self : Size K) (factor : K) : Size K :=
  ⟨self.width * factor, self.height * factor⟩

namespace Bounds

def scale (self : Bounds K) (factor : K) : Bounds K :=
  ⟨self.origin.scale factor, self.size.scale factor⟩

def bottomRight (self : Bounds K) : Point K where
  x := self.origin.x + self.size.width
  y := self.origin.y + self.size.height

def fromCorners (topLeft bottomRight : Point K) : Bounds K where
  origin := topLeft
  size := ⟨bottomRight.x - topLeft.x, bottomRight.y - topLeft.y⟩

def intersects (self other : Bounds K) : Bool :=
  let myLowerRight := self.bottomRight
  let theirLowerRight := other.bottomRight
  self.origin.x < theirLowerRight.x
    && myLowerRight.x > other.origin.x
    && self.origin.y < theirLowerRight.y
    && myLowerRight.y > other.origin.y

def halfPerimeter (self : Bounds K) : K :=
  self.size.width + self.size.height

def intersect (self other : Bounds K) : Bounds K :=
  fromCorners (self.origin.max other.origin) (self.bottomRight.min other.bottomRight)

def union (self other : Bounds K) : Bounds K :=
  fromCorners (self.origin.min other.origin) (self.bottomRight.max other.bottomRight)

def isEmpty (self : Bounds K) : Bool :=
  self.size.width ≤ 0 || self.size.height ≤ 0

omit [LinearOrder K] in
@[simp]
theorem fromCorners_origin (topLeft bottomRight : Point K) :
    (fromCorners topLeft bottomRight).origin = topLeft :=
  rfl

omit [LinearOrder K] in
@[simp]
theorem fromCorners_bottomRight (topLeft bottomRight : Point K) :
    (fromCorners topLeft bottomRight).bottomRight = bottomRight := by
  simp [fromCorners, Bounds.bottomRight]

theorem intersects_iff (self other : Bounds K) :
    self.intersects other = true ↔
      self.origin.x < other.bottomRight.x ∧ other.origin.x < self.bottomRight.x ∧
        self.origin.y < other.bottomRight.y ∧ other.origin.y < self.bottomRight.y := by
  simp [intersects, and_assoc]

/-- Overlap is a symmetric test. -/
theorem intersects_comm (self other : Bounds K) :
    self.intersects other = other.intersects self := by
  rw [Bool.eq_iff_iff, intersects_iff, intersects_iff]
  tauto

/-- `outer.Covers inner`: no corner of `inner` lies outside `outer`. -/
def Covers (outer inner : Bounds K) : Prop :=
  outer.origin.x ≤ inner.origin.x ∧ outer.origin.y ≤ inner.origin.y ∧
    inner.bottomRight.x ≤ outer.bottomRight.x ∧ inner.bottomRight.y ≤ outer.bottomRight.y

instance (outer inner : Bounds K) : Decidable (outer.Covers inner) :=
  inferInstanceAs (Decidable (_ ∧ _ ∧ _ ∧ _))

theorem Covers.refl (self : Bounds K) : self.Covers self :=
  ⟨le_rfl, le_rfl, le_rfl, le_rfl⟩

theorem Covers.trans {first second third : Bounds K}
    (outer : first.Covers second) (inner : second.Covers third) : first.Covers third :=
  ⟨outer.1.trans inner.1, outer.2.1.trans inner.2.1, inner.2.2.1.trans outer.2.2.1,
    inner.2.2.2.trans outer.2.2.2⟩

theorem union_covers_left (self other : Bounds K) : (self.union other).Covers self := by
  simp [union, Covers]

theorem union_covers_right (self other : Bounds K) : (self.union other).Covers other := by
  simp [union, Covers]

/-- The union is the least rectangle covering both. -/
theorem union_covered {outer first second : Bounds K}
    (coversFirst : outer.Covers first) (coversSecond : outer.Covers second) :
    outer.Covers (first.union second) := by
  obtain ⟨left, top, right, bottom⟩ := coversFirst
  obtain ⟨left', top', right', bottom'⟩ := coversSecond
  simp only [Covers, union, fromCorners_origin, fromCorners_bottomRight, Point.min_x,
    Point.min_y, Point.max_x, Point.max_y]
  exact ⟨le_min left left', le_min top top', max_le right right', max_le bottom bottom'⟩

/-- Whatever overlaps a rectangle overlaps every rectangle that covers it. -/
theorem Covers.intersects {outer inner other : Bounds K} (covers : outer.Covers inner)
    (overlap : inner.intersects other = true) : outer.intersects other = true := by
  obtain ⟨left, top, right, bottom⟩ := covers
  obtain ⟨fromLeft, fromRight, fromTop, fromBottom⟩ := (intersects_iff _ _).mp overlap
  exact (intersects_iff _ _).mpr
    ⟨left.trans_lt fromLeft, fromRight.trans_le right, top.trans_lt fromTop,
      fromBottom.trans_le bottom⟩

end Bounds

end Gpui
