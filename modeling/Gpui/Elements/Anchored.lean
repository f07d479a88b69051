import Gpui.Scene.FilledTriangles

/-!
# Anchored elements

An anchored element places its content with a corner at a point of the window.  Where the
content would overflow the window, another corner is tried, or the content is moved to the
edge of the window.

Coordinates are exact, and the final rounding to whole pixels is left out.
-/

namespace Gpui

inductive Axis where
  | horizontal
  | vertical
deriving DecidableEq, Repr

inductive Corner where
  | topLeft
  | topRight
  | bottomLeft
  | bottomRight
deriving DecidableEq, Repr

def Corner.otherSideCornerAlong : Corner → Axis → Corner
  | topLeft, .vertical => bottomLeft
  | topRight, .vertical => bottomRight
  | bottomLeft, .vertical => topLeft
  | bottomRight, .vertical => topRight
  | topLeft, .horizontal => topRight
  | topRight, .horizontal => topLeft
  | bottomLeft, .horizontal => bottomRight
  | bottomRight, .horizontal => bottomLeft

variable {K : Type} [Field K] [LinearOrder K]

/-- `Point::default`. -/
def Point.zero : Point K :=
  ⟨0, 0⟩

namespace Bounds

def fromCornerAndSize (corner : Corner) (origin : Point K) (size : Size K) : Bounds K :=
  match corner with
  | .topLeft => ⟨origin, size⟩
  | .topRight => ⟨⟨origin.x - size.width, origin.y⟩, size⟩
  | .bottomLeft => ⟨⟨origin.x, origin.y - size.height⟩, size⟩
  | .bottomRight => ⟨⟨origin.x - size.width, origin.y - size.height⟩, size⟩

def corner (self : Bounds K) : Corner → Point K
  | .topLeft => self.origin
  | .topRight => ⟨self.origin.x + self.size.width, self.origin.y⟩
  | .bottomLeft => ⟨self.origin.x, self.origin.y + self.size.height⟩
  | .bottomRight => self.bottomRight

/-- The rectangle lies partly outside the limits along an axis. -/
def Overflows (self limits : Bounds K) : Axis → Prop
  | .horizontal => self.origin.x < limits.origin.x ∨ limits.bottomRight.x < self.bottomRight.x
  | .vertical => self.origin.y < limits.origin.y ∨ limits.bottomRight.y < self.bottomRight.y

instance (self limits : Bounds K) (axis : Axis) : Decidable (self.Overflows limits axis) := by
  cases axis <;> exact inferInstanceAs (Decidable (_ ∨ _))

end Bounds

inductive AnchoredFitMode (K : Type) where
  | snapToWindow
  | snapToWindowWithMargin (edges : Edges K)
  | switchAnchor
deriving DecidableEq, Repr

inductive AnchoredPositionMode where
  | window
  | localToParent
deriving DecidableEq, Repr

structure Anchored (K : Type) where
  anchorCorner : Corner
  fitMode : AnchoredFitMode K
  anchorPosition : Option (Point K)
  positionMode : AnchoredPositionMode
  offset : Option (Point K)
deriving DecidableEq, Repr

/-- What an anchored element reads of its window. -/
structure AnchoredWindow (K : Type) where
  viewportSize : Size K
  clientInset : Option K
deriving DecidableEq, Repr

def AnchoredWindow.limits (self : AnchoredWindow K) : Bounds K :=
  ⟨.zero, self.viewportSize⟩

def AnchoredPositionMode.getPositionAndBounds (self : AnchoredPositionMode)
    (anchorPosition : Option (Point K)) (anchorCorner : Corner) (size : Size K)
    (bounds : Bounds K) (offset : Option (Point K)) : Point K × Bounds K :=
  let offset := offset.getD .zero
  match self with
  | window =>
      let anchorPosition := anchorPosition.getD bounds.origin
      (anchorPosition, .fromCornerAndSize anchorCorner (anchorPosition.add offset) size)
  | localToParent =>
      let anchorPosition := anchorPosition.getD .zero
      (anchorPosition,
        .fromCornerAndSize anchorCorner ((bounds.origin.add anchorPosition).add offset) size)

/-- Move one edge pair: to the far edge if it lies behind, then to the near edge if it lies
before. -/
def snapAlong (near far nearEdge farEdge length origin : K) : K :=
  let origin :=
    if far < origin + length then origin - (origin + length - far + farEdge) else origin
  if origin < near then near + nearEdge else origin

/-- A margin to which a stretch is moved is not negative and leaves room for it. -/
def RoomAlong (near far nearEdge farEdge length origin : K) : Prop :=
  (far < origin + length → 0 ≤ farEdge ∧ near + length + farEdge ≤ far) ∧
    (origin + length ≤ far → origin < near → 0 ≤ nearEdge ∧ near + nearEdge + length ≤ far)

namespace Anchored

/-- The least origin of the children; the source starts at the largest number. -/
def childMin (first : Bounds K) (rest : List (Bounds K)) : Point K :=
  rest.foldl (fun childMin child => childMin.min child.origin) first.origin

def childMax (children : List (Bounds K)) : Point K :=
  children.foldl (fun childMax child => childMax.max child.bottomRight) .zero

def size (first : Bounds K) (rest : List (Bounds K)) : Size K :=
  let extent := (childMax (first :: rest)).sub (childMin first rest)
  ⟨extent.x, extent.y⟩

/-- Try the other side of the content along an axis, if it overflows. -/
def switchAlong (axis : Axis) (limits : Bounds K) (origin : Point K) (size : Size K)
    (placed : Corner × Bounds K) : Corner × Bounds K :=
  if placed.2.Overflows limits axis then
    let switched :=
      Bounds.fromCornerAndSize (placed.1.otherSideCornerAlong axis) origin size
    if ¬ switched.Overflows limits axis then
      (placed.1.otherSideCornerAlong axis, switched)
    else placed
  else placed

/-- The corner that is used, and the rectangle of the content before it is moved to an edge. -/
def place (self : Anchored K) (limits : Bounds K) (origin : Point K) (desired : Bounds K) :
    Corner × Bounds K :=
  if self.fitMode = .switchAnchor then
    switchAlong .vertical limits origin desired.size
      (switchAlong .horizontal limits origin desired.size (self.anchorCorner, desired))
  else (self.anchorCorner, desired)

def edges (self : Anchored K) (window : AnchoredWindow K) : Edges K :=
  let clientInset := window.clientInset.getD 0
  let edges := match self.fitMode with
    | .snapToWindowWithMargin edges => edges
    | _ => ⟨0, 0, 0, 0⟩
  ⟨edges.top + clientInset, edges.right + clientInset, edges.bottom + clientInset,
    edges.left + clientInset⟩

def snap (limits : Bounds K) (edges : Edges K) (desired : Bounds K) : Bounds K where
  origin :=
    ⟨snapAlong limits.origin.x limits.bottomRight.x edges.left edges.right desired.size.width
        desired.origin.x,
      snapAlong limits.origin.y limits.bottomRight.y edges.top edges.bottom desired.size.height
        desired.origin.y⟩
  size := desired.size

/-- The corner at which the content is placed, and its rectangle before it is moved. -/
def placement (self : Anchored K) (window : AnchoredWindow K) (bounds : Bounds K)
    (size : Size K) : Corner × Bounds K :=
  let (origin, desired) := self.positionMode.getPositionAndBounds self.anchorPosition
    self.anchorCorner size bounds self.offset
  self.place window.limits origin desired

/-- The offset by which the children are moved. -/
def prepaint (self : Anchored K) (window : AnchoredWindow K) (bounds : Bounds K) :
    List (Bounds K) → Option (Point K)
  | [] => none
  | first :: rest =>
      let desired := (self.placement window bounds (size first rest)).2
      some ((snap window.limits (self.edges window) desired).origin.sub bounds.origin)

/-! ## What anchoring is for -/

/-- The rectangle around all children. -/
def content (first : Bounds K) (rest : List (Bounds K)) : Bounds K :=
  rest.foldl Bounds.union first

/-- The point of the window at which the corner is to be. -/
def anchorPoint (self : Anchored K) (bounds : Bounds K) : Point K :=
  match self.positionMode with
  | .window => (self.anchorPosition.getD bounds.origin).add (self.offset.getD .zero)
  | .localToParent =>
      (bounds.origin.add (self.anchorPosition.getD .zero)).add (self.offset.getD .zero)

/-- Content of a size at the requested corner. -/
def requested (self : Anchored K) (bounds : Bounds K) (size : Size K) : Bounds K :=
  .fromCornerAndSize self.anchorCorner (self.anchorPoint bounds) size

/-- The content and the margins fit the viewport. -/
def Fits (self : Anchored K) (window : AnchoredWindow K) (size : Size K) : Prop :=
  size.width + (self.edges window).left + (self.edges window).right ≤
      window.viewportSize.width ∧
    size.height + (self.edges window).top + (self.edges window).bottom ≤
      window.viewportSize.height

/-- Content that fits ends up in the viewport, content that is in the viewport at the requested
corner is not moved, and a switched corner is where the requested corner would have been. -/
structure Placed (anchored : Anchored K) (window : AnchoredWindow K) (bounds first : Bounds K)
    (rest : List (Bounds K)) : Prop where
  inside : ∀ offset, anchored.prepaint window bounds (first :: rest) = some offset →
    anchored.Fits window (content first rest).size →
    window.limits.Covers ⟨(content first rest).origin.add offset, (content first rest).size⟩
  unmoved : ∀ offset, anchored.prepaint window bounds (first :: rest) = some offset →
    window.limits.Covers (anchored.requested bounds (content first rest).size) →
    ⟨(content first rest).origin.add offset, (content first rest).size⟩ =
      anchored.requested bounds (content first rest).size
  switched : (anchored.placement window bounds (size first rest)).2.corner
      (anchored.placement window bounds (size first rest)).1 = anchored.anchorPoint bounds

/-- The content lies at the origin of the element and ends neither above nor left of the
window. -/
structure Aligned (bounds first : Bounds K) (rest : List (Bounds K)) : Prop where
  origin : (content first rest).origin = bounds.origin
  right : 0 ≤ (content first rest).bottomRight.x
  bottom : 0 ≤ (content first rest).bottomRight.y

/-- The point that the switch uses. -/
def position (self : Anchored K) (bounds : Bounds K) : Point K :=
  match self.positionMode with
  | .window => self.anchorPosition.getD bounds.origin
  | .localToParent => self.anchorPosition.getD .zero

/-- What is missing from that point. -/
def shift (self : Anchored K) (bounds : Bounds K) : Point K :=
  match self.positionMode with
  | .window => self.offset.getD .zero
  | .localToParent => bounds.origin.add (self.offset.getD .zero)

/-- No switch is made: along each axis the content fits at the requested corner, or it fits at
the other side neither. -/
def Stays (self : Anchored K) (window : AnchoredWindow K) (bounds : Bounds K) (size : Size K) :
    Prop :=
  self.fitMode = .switchAnchor → ∀ axis,
    (self.requested bounds size).Overflows window.limits axis →
      (Bounds.fromCornerAndSize (self.anchorCorner.otherSideCornerAlong axis)
        (self.position bounds) size).Overflows window.limits axis

/-- The content where a switch at the anchor point would place it. -/
def preferred (self : Anchored K) (window : AnchoredWindow K) (bounds : Bounds K)
    (size : Size K) : Bounds K :=
  (self.place window.limits (self.anchorPoint bounds) (self.requested bounds size)).2

/-- If the content fits, the margins to which a rectangle is moved leave room for it. -/
def Roomy (self : Anchored K) (window : AnchoredWindow K) (desired : Bounds K) : Prop :=
  self.Fits window desired.size →
    RoomAlong 0 window.viewportSize.width (self.edges window).left (self.edges window).right
        desired.size.width desired.origin.x ∧
      RoomAlong 0 window.viewportSize.height (self.edges window).top (self.edges window).bottom
        desired.size.height desired.origin.y

/-- No switch is made and the margins leave room, or the switch is made at the anchor point,
and they leave room there. -/
def Anchors (self : Anchored K) (window : AnchoredWindow K) (bounds : Bounds K)
    (size : Size K) : Prop :=
  self.Stays window bounds size ∧ self.Roomy window (self.requested bounds size) ∨
    self.shift bounds = .zero ∧ self.Roomy window (self.preferred window bounds size)

end Anchored

/-! ## Along one axis -/

section Along

variable {near far nearEdge farEdge length origin : K}

theorem snapAlong_of_inside (first : near ≤ origin) (last : origin + length ≤ far) :
    snapAlong near far nearEdge farEdge length origin = origin := by
  rw [snapAlong]
  simp only [if_neg (not_lt.mpr last), if_neg (not_lt.mpr first)]

/-- A stretch that fits is moved inside exactly if the margins leave room for it. -/
theorem snapAlong_inside_iff [IsStrictOrderedRing K]
    (fits : length + nearEdge + farEdge ≤ far - near) :
    (near ≤ snapAlong near far nearEdge farEdge length origin ∧
        snapAlong near far nearEdge farEdge length origin + length ≤ far) ↔
      RoomAlong near far nearEdge farEdge length origin := by
  by_cases behind : far < origin + length
  · by_cases before : origin - (origin + length - far + farEdge) < near
    · have moved : snapAlong near far nearEdge farEdge length origin = near + nearEdge := by
        rw [snapAlong]
        simp only [if_pos behind, if_pos before]
      rw [moved]
      constructor
      · rintro ⟨first, last⟩
        refine ⟨fun _ => ⟨?_, ?_⟩, fun inside => absurd behind (not_lt.mpr inside)⟩ <;> linarith
      · rintro ⟨room, -⟩
        rcases room behind with ⟨positive, room⟩
        constructor <;> linarith
    · have moved : snapAlong near far nearEdge farEdge length origin =
          origin - (origin + length - far + farEdge) := by
        rw [snapAlong]
        simp only [if_pos behind, if_neg before]
      rw [moved]
      constructor
      · rintro ⟨first, last⟩
        refine ⟨fun _ => ⟨?_, ?_⟩, fun inside => absurd behind (not_lt.mpr inside)⟩ <;> linarith
      · rintro ⟨room, -⟩
        rcases room behind with ⟨positive, room⟩
        constructor <;> linarith
  · by_cases before : origin < near
    · have moved : snapAlong near far nearEdge farEdge length origin = near + nearEdge := by
        rw [snapAlong]
        simp only [if_neg behind, if_pos before]
      rw [moved]
      constructor
      · rintro ⟨first, last⟩
        refine ⟨fun beyond => absurd beyond behind, fun _ _ => ⟨?_, ?_⟩⟩ <;> linarith
      · rintro ⟨-, room⟩
        rcases room (not_lt.mp behind) before with ⟨positive, room⟩
        constructor <;> linarith
    · rw [snapAlong_of_inside (not_lt.mp before) (not_lt.mp behind)]
      constructor
      · rintro -
        exact ⟨fun beyond => absurd beyond behind, fun _ sooner => absurd sooner before⟩
      · rintro -
        exact ⟨not_lt.mp before, not_lt.mp behind⟩

theorem roomAlong_of_nonneg [IsStrictOrderedRing K]
    (fits : length + nearEdge + farEdge ≤ far - near) (first : 0 ≤ nearEdge) (last : 0 ≤ farEdge) :
    RoomAlong near far nearEdge farEdge length origin := by
  constructor
  · intro _
    constructor <;> linarith
  · intro _ _
    constructor <;> linarith

end Along

/-! ## Corners -/

namespace Bounds

omit [LinearOrder K] in
theorem corner_fromCornerAndSize (corner : Corner) (origin : Point K) (size : Size K) :
    (fromCornerAndSize corner origin size).corner corner = origin := by
  cases corner with
  | topLeft => rfl
  | topRight => simp [fromCornerAndSize, Bounds.corner]
  | bottomLeft => simp [fromCornerAndSize, Bounds.corner]
  | bottomRight => simp [fromCornerAndSize, Bounds.corner, bottomRight]

omit [LinearOrder K] in
@[simp]
theorem fromCornerAndSize_size (corner : Corner) (origin : Point K) (size : Size K) :
    (fromCornerAndSize corner origin size).size = size := by
  cases corner <;> rfl

/-- Rectangles that are covered overflow along no axis. -/
theorem covers_iff_not_overflows (limits self : Bounds K) :
    limits.Covers self ↔ ∀ axis, ¬ self.Overflows limits axis := by
  constructor
  · rintro ⟨left, top, right, bottom⟩ axis
    cases axis with
    | horizontal => exact not_or.mpr ⟨not_lt.mpr left, not_lt.mpr right⟩
    | vertical => exact not_or.mpr ⟨not_lt.mpr top, not_lt.mpr bottom⟩
  · intro inside
    rcases not_or.mp (inside .horizontal) with ⟨left, right⟩
    rcases not_or.mp (inside .vertical) with ⟨top, bottom⟩
    exact ⟨not_lt.mp left, not_lt.mp top, not_lt.mp right, not_lt.mp bottom⟩

end Bounds

namespace Anchored

variable {self : Anchored K} {window : AnchoredWindow K} {bounds first : Bounds K}
  {rest : List (Bounds K)}

theorem switchAlong_cases (axis : Axis) (limits : Bounds K) (origin : Point K) (size : Size K)
    (placed : Corner × Bounds K) :
    (placed.2.Overflows limits axis ∧
        ¬ (Bounds.fromCornerAndSize (placed.1.otherSideCornerAlong axis) origin size).Overflows
          limits axis ∧
        switchAlong axis limits origin size placed =
          (placed.1.otherSideCornerAlong axis,
            .fromCornerAndSize (placed.1.otherSideCornerAlong axis) origin size)) ∨
      ((placed.2.Overflows limits axis →
          (Bounds.fromCornerAndSize (placed.1.otherSideCornerAlong axis) origin size).Overflows
            limits axis) ∧
        switchAlong axis limits origin size placed = placed) := by
  rw [switchAlong]
  by_cases overflows : placed.2.Overflows limits axis
  · rw [if_pos overflows]
    by_cases still : (Bounds.fromCornerAndSize (placed.1.otherSideCornerAlong axis) origin
        size).Overflows limits axis
    · exact Or.inr ⟨fun _ => still, if_neg (not_not.mpr still)⟩
    · exact Or.inl ⟨overflows, still, if_pos still⟩
  · rw [if_neg overflows]
    exact Or.inr ⟨fun overflow => absurd overflow overflows, rfl⟩

theorem placement_eq (size : Size K) : self.placement window bounds size =
    self.place window.limits (self.position bounds) (self.requested bounds size) := by
  rw [placement, position, requested, anchorPoint]
  cases self.positionMode <;> rfl

omit [LinearOrder K] in
theorem requested_size (size : Size K) : (self.requested bounds size).size = size :=
  Bounds.fromCornerAndSize_size _ _ _

/-- Without a switch the content is at the requested corner. -/
theorem Stays.placement {size : Size K} (stays : self.Stays window bounds size) :
    self.placement window bounds size = (self.anchorCorner, self.requested bounds size) := by
  rw [placement_eq, place]
  by_cases switches : self.fitMode = .switchAnchor
  · rw [if_pos switches, requested_size]
    have stays := stays switches
    rcases switchAlong_cases .horizontal window.limits (self.position bounds) size
        (self.anchorCorner, self.requested bounds size) with ⟨overflows, fits, -⟩ | ⟨-, kept⟩
    · exact absurd (stays .horizontal overflows) fits
    · rw [kept]
      rcases switchAlong_cases .vertical window.limits (self.position bounds) size
          (self.anchorCorner, self.requested bounds size) with ⟨overflows, fits, -⟩ | ⟨-, kept⟩
      · exact absurd (stays .vertical overflows) fits
      · exact kept
  · rw [if_neg switches]

/-- A switch puts the switched corner at the position of the element. -/
theorem placement_of_not_stays {size : Size K} (switched : ¬ self.Stays window bounds size) :
    ∃ corner, self.placement window bounds size =
      (corner, .fromCornerAndSize corner (self.position bounds) size) := by
  rw [placement_eq, place]
  by_cases switches : self.fitMode = .switchAnchor
  · rw [if_pos switches, requested_size]
    rcases switchAlong_cases .horizontal window.limits (self.position bounds) size
        (self.anchorCorner, self.requested bounds size) with ⟨-, -, moved⟩ | ⟨horizontal, kept⟩
    · rw [moved]
      rcases switchAlong_cases .vertical window.limits (self.position bounds) size
          (self.anchorCorner.otherSideCornerAlong .horizontal, .fromCornerAndSize
            (self.anchorCorner.otherSideCornerAlong .horizontal) (self.position bounds) size) with
        ⟨-, -, moved⟩ | ⟨-, kept⟩
      · exact ⟨_, moved⟩
      · exact ⟨_, kept⟩
    · rw [kept]
      rcases switchAlong_cases .vertical window.limits (self.position bounds) size
          (self.anchorCorner, self.requested bounds size) with ⟨-, -, moved⟩ | ⟨vertical, -⟩
      · exact ⟨_, moved⟩
      · apply absurd _ switched
        intro _ axis
        cases axis with
        | horizontal => exact horizontal
        | vertical => exact vertical
  · exact absurd (fun switch => absurd switch switches) switched

omit [LinearOrder K] in
theorem anchorPoint_eq : self.anchorPoint bounds = (self.position bounds).add (self.shift bounds) := by
  rw [anchorPoint, position, shift]
  cases self.positionMode with
  | window => rfl
  | localToParent =>
      simp only [Point.add, Point.mk.injEq]
      constructor <;> ring

omit [LinearOrder K] in
theorem anchorPoint_eq_iff :
    self.position bounds = self.anchorPoint bounds ↔ self.shift bounds = .zero := by
  rw [anchorPoint_eq]
  rcases self.position bounds with ⟨x, y⟩
  rcases self.shift bounds with ⟨a, b⟩
  simp [Point.add, Point.zero]

/-- The switched corner is at the anchor point if there is no switch or nothing is missing. -/
theorem placement_corner_iff (size : Size K) :
    (self.placement window bounds size).2.corner (self.placement window bounds size).1 =
        self.anchorPoint bounds ↔
      self.Stays window bounds size ∨ self.shift bounds = .zero := by
  by_cases stays : self.Stays window bounds size
  · rw [stays.placement]
    exact iff_of_true (Bounds.corner_fromCornerAndSize _ _ _) (Or.inl stays)
  · rcases placement_of_not_stays stays with ⟨corner, switched⟩
    rw [switched, Bounds.corner_fromCornerAndSize, anchorPoint_eq_iff]
    exact ⟨Or.inr, fun either => either.resolve_left stays⟩

/-! ## The content -/

omit [Field K] in
theorem max_max (first second third : Point K) :
    (first.max second).max third = first.max (second.max third) := by
  have x : ((first.max second).max third).x = (first.max (second.max third)).x := by
    simp [max_assoc]
  have y : ((first.max second).max third).y = (first.max (second.max third)).y := by
    simp [max_assoc]
  exact congrArg₂ Point.mk x y

theorem content_origin (first : Bounds K) (rest : List (Bounds K)) :
    (content first rest).origin = childMin first rest := by
  rw [content, childMin]
  induction rest generalizing first with
  | nil => rfl
  | cons child rest ih => exact ih (first.union child)

theorem foldl_max (start first : Point K) (rest : List (Bounds K)) :
    rest.foldl (fun childMax child => childMax.max child.bottomRight) (start.max first) =
      start.max (rest.foldl (fun childMax child => childMax.max child.bottomRight) first) := by
  induction rest generalizing first with
  | nil => rfl
  | cons child rest ih => rw [List.foldl_cons, List.foldl_cons, max_max, ih]

theorem content_bottomRight (first : Bounds K) (rest : List (Bounds K)) :
    (content first rest).bottomRight =
      rest.foldl (fun childMax child => childMax.max child.bottomRight) first.bottomRight := by
  rw [content]
  induction rest generalizing first with
  | nil => rfl
  | cons child rest ih =>
      rw [List.foldl_cons, List.foldl_cons, ih, Bounds.union, Bounds.fromCorners_bottomRight]

/-- The size that is used reaches to the corner of the content or to that of the window. -/
theorem size_eq (first : Bounds K) (rest : List (Bounds K)) :
    size first rest =
      ⟨Max.max 0 (content first rest).bottomRight.x - (content first rest).origin.x,
        Max.max 0 (content first rest).bottomRight.y - (content first rest).origin.y⟩ := by
  rw [size, childMax, List.foldl_cons, foldl_max, ← content_bottomRight, ← content_origin]
  simp [Point.sub, Point.zero]

omit [LinearOrder K] in
theorem size_of_corners (self : Bounds K) :
    self.size = ⟨self.bottomRight.x - self.origin.x, self.bottomRight.y - self.origin.y⟩ := by
  simp [Bounds.bottomRight]

theorem Aligned.size (aligned : Aligned bounds first rest) :
    Anchored.size first rest = (content first rest).size := by
  rw [size_eq, max_eq_right aligned.right, max_eq_right aligned.bottom, ← size_of_corners]

/-! ## Where the content ends up -/

theorem snap_of_covers {edges : Edges K} {desired : Bounds K}
    (covers : window.limits.Covers desired) : snap window.limits edges desired = desired := by
  rcases covers with ⟨left, top, right, bottom⟩
  rw [snap, snapAlong_of_inside left right, snapAlong_of_inside top bottom]

theorem covers_snap_iff [IsStrictOrderedRing K] {desired : Bounds K}
    (fits : self.Fits window desired.size) :
    window.limits.Covers (snap window.limits (self.edges window) desired) ↔
      RoomAlong 0 window.viewportSize.width (self.edges window).left (self.edges window).right
          desired.size.width desired.origin.x ∧
        RoomAlong 0 window.viewportSize.height (self.edges window).top
          (self.edges window).bottom desired.size.height desired.origin.y := by
  rcases fits with ⟨width, height⟩
  rw [← sub_zero window.viewportSize.width] at width
  rw [← sub_zero window.viewportSize.height] at height
  rw [← snapAlong_inside_iff width, ← snapAlong_inside_iff height]
  simp only [Bounds.Covers, snap, AnchoredWindow.limits, Point.zero, Bounds.bottomRight, zero_add]
  tauto

theorem placement_size (size : Size K) :
    (self.placement window bounds size).2.size = size := by
  by_cases stays : self.Stays window bounds size
  · rw [stays.placement, requested_size]
  · rcases placement_of_not_stays stays with ⟨corner, switched⟩
    rw [switched, Bounds.fromCornerAndSize_size]

/-- Aligned content ends up where the code takes it to be. -/
theorem Aligned.moved (aligned : Aligned bounds first rest) {offset : Point K}
    (moves : self.prepaint window bounds (first :: rest) = some offset) :
    (⟨(content first rest).origin.add offset, (content first rest).size⟩ : Bounds K) =
      snap window.limits (self.edges window)
        (self.placement window bounds (content first rest).size).2 := by
  rcases Option.some.inj moves with rfl
  rw [aligned.origin, aligned.size]
  simp only [Point.add, Point.sub, add_sub_cancel]
  rw [snap, placement_size]

theorem Aligned.inside_iff [IsStrictOrderedRing K] (aligned : Aligned bounds first rest) :
    (∀ offset, self.prepaint window bounds (first :: rest) = some offset →
        self.Fits window (content first rest).size →
        window.limits.Covers
          ⟨(content first rest).origin.add offset, (content first rest).size⟩) ↔
      self.Roomy window (self.placement window bounds (content first rest).size).2 := by
  have placedSize : (self.placement window bounds (content first rest).size).2.size = _ :=
    placement_size (content first rest).size
  constructor
  · intro inside fits
    have covers := inside _ rfl (by rwa [placedSize] at fits)
    rw [aligned.moved rfl] at covers
    exact (covers_snap_iff fits).mp covers
  · intro roomy offset moves fits
    rw [aligned.moved moves]
    rw [← placedSize] at fits
    exact (covers_snap_iff fits).mpr (roomy fits)

/-- Content in the viewport at the requested corner is not moved. -/
theorem Aligned.unmoved (aligned : Aligned bounds first rest) {offset : Point K}
    (moves : self.prepaint window bounds (first :: rest) = some offset)
    (covers : window.limits.Covers (self.requested bounds (content first rest).size)) :
    (⟨(content first rest).origin.add offset, (content first rest).size⟩ : Bounds K) =
      self.requested bounds (content first rest).size := by
  have stays : self.Stays window bounds (content first rest).size := fun _ axis overflows =>
    absurd overflows ((Bounds.covers_iff_not_overflows _ _).mp covers axis)
  rw [aligned.moved moves, stays.placement]
  exact snap_of_covers covers

theorem Aligned.placed_iff [IsStrictOrderedRing K] (aligned : Aligned bounds first rest) :
    self.Placed window bounds first rest ↔
      self.Anchors window bounds (content first rest).size := by
  have corner : _ ↔ self.Stays window bounds (content first rest).size ∨ _ :=
    placement_corner_iff (content first rest).size
  have atAnchor : self.shift bounds = .zero →
      (self.placement window bounds (content first rest).size).2 =
        self.preferred window bounds (content first rest).size := by
    intro nothing
    rw [placement_eq, anchorPoint_eq_iff.2 nothing]
    rfl
  constructor
  · rintro ⟨inside, -, switched⟩
    have roomy := aligned.inside_iff.1 inside
    rw [aligned.size, corner] at switched
    rcases switched with stays | nothing
    · rw [stays.placement] at roomy
      exact Or.inl ⟨stays, roomy⟩
    · rw [atAnchor nothing] at roomy
      exact Or.inr ⟨nothing, roomy⟩
  · rintro (⟨stays, roomy⟩ | ⟨nothing, roomy⟩)
    · constructor
      · apply aligned.inside_iff.2
        rwa [stays.placement]
      · exact fun offset moves covers => aligned.unmoved moves covers
      · rw [aligned.size, corner]
        exact Or.inl stays
    · constructor
      · apply aligned.inside_iff.2
        rwa [atAnchor nothing]
      · exact fun offset moves covers => aligned.unmoved moves covers
      · rw [aligned.size, corner]
        exact Or.inr nothing

/-! ## Content that is not aligned -/

theorem roomy_of_nonneg [IsStrictOrderedRing K] {desired : Bounds K}
    (left : 0 ≤ (self.edges window).left) (right : 0 ≤ (self.edges window).right)
    (top : 0 ≤ (self.edges window).top) (bottom : 0 ≤ (self.edges window).bottom) :
    self.Roomy window desired := by
  rintro ⟨width, height⟩
  rw [← sub_zero window.viewportSize.width] at width
  rw [← sub_zero window.viewportSize.height] at height
  exact ⟨roomAlong_of_nonneg width left right, roomAlong_of_nonneg height top bottom⟩

/-- An element that is snapped to a window as large as its content is taken to be. -/
def snapped (corner : Corner) (position : Point K) : Anchored K :=
  ⟨corner, .snapToWindow, some position, .window, none⟩

theorem snapped_stays (corner : Corner) (position : Point K) (size : Size K) :
    (snapped corner position).Stays window bounds size := by
  intro switches
  cases switches

theorem snapped_anchors [IsStrictOrderedRing K] (corner : Corner) (position : Point K)
    (viewportSize size : Size K) :
    (snapped corner position).Anchors ⟨viewportSize, none⟩ bounds size := by
  apply Or.inl
  refine ⟨snapped_stays corner position size, ?_⟩
  apply roomy_of_nonneg <;> exact (zero_add (0 : K)).ge

theorem snapped_prepaint {corner : Corner} {position : Point K} {window : AnchoredWindow K}
    (covers : window.limits.Covers
      ((snapped corner position).requested bounds (size first rest))) :
    (snapped corner position).prepaint window bounds (first :: rest) =
      some (((snapped corner position).requested bounds (size first rest)).origin.sub
        bounds.origin) := by
  rw [prepaint, (snapped_stays corner position _).placement]
  exact congrArg (fun moved : Bounds K => some (moved.origin.sub bounds.origin))
    (snap_of_covers covers)

/-- What the element promises is not kept for content that is not aligned. -/
theorem exists_not_placed [IsStrictOrderedRing K] (misaligned : ¬ Aligned bounds first rest) :
    ∃ (anchored : Anchored K) (window : AnchoredWindow K),
      anchored.Anchors window bounds (content first rest).size ∧
        ¬ anchored.Placed window bounds first rest := by
  have larger : (content first rest).size.width ≤ (size first rest).width ∧
      (content first rest).size.height ≤ (size first rest).height := by
    rw [size_of_corners (content first rest), size_eq]
    exact ⟨sub_le_sub_right (le_max_right _ _) _, sub_le_sub_right (le_max_right _ _) _⟩
  by_contra kept
  push Not at kept
  have covered : ∀ corner position,
      (⟨size first rest, none⟩ : AnchoredWindow K).limits.Covers
        ((snapped corner position).requested bounds (size first rest)) →
      (⟨size first rest, none⟩ : AnchoredWindow K).limits.Covers
        ((snapped corner position).requested bounds (content first rest).size) →
      (content first rest).origin.add
          (((snapped corner position).requested bounds (size first rest)).origin.sub
            bounds.origin) =
        ((snapped corner position).requested bounds (content first rest).size).origin :=
    fun corner position takenCovers covers => congrArg Bounds.origin
      ((kept (snapped corner position) ⟨size first rest, none⟩
        (snapped_anchors corner position _ _)).unmoved _ (snapped_prepaint takenCovers) covers)
  -- At the top left corner the content shows where it begins.
  have atTopLeft := covered .topLeft .zero
    (by simp [snapped, requested, anchorPoint, Bounds.fromCornerAndSize, Bounds.Covers,
      AnchoredWindow.limits, Bounds.bottomRight, Point.add, Point.zero])
    (by simpa [snapped, requested, anchorPoint, Bounds.fromCornerAndSize, Bounds.Covers,
      AnchoredWindow.limits, Bounds.bottomRight, Point.add, Point.zero] using larger)
  -- At the bottom right corner it shows how large it is taken to be.
  have atBottomRight := covered .bottomRight ⟨(size first rest).width, (size first rest).height⟩
    (by simp [snapped, requested, anchorPoint, Bounds.fromCornerAndSize, Bounds.Covers,
      AnchoredWindow.limits, Bounds.bottomRight, Point.add, Point.zero])
    (by simpa [snapped, requested, anchorPoint, Bounds.fromCornerAndSize, Bounds.Covers,
      AnchoredWindow.limits, Bounds.bottomRight, Point.add, Point.zero] using larger)
  simp only [snapped, requested, anchorPoint, Bounds.fromCornerAndSize, Point.add, Point.sub,
    Point.zero, Option.getD_some, Option.getD_none, Point.mk.injEq, add_zero, zero_sub] at atTopLeft
  simp only [snapped, requested, anchorPoint, Bounds.fromCornerAndSize, Point.add, Point.sub,
    Point.zero, Option.getD_some, Option.getD_none, Point.mk.injEq, add_zero, sub_self,
    zero_sub] at atBottomRight
  have x : (content first rest).origin.x = bounds.origin.x := by linarith [atTopLeft.1]
  have y : (content first rest).origin.y = bounds.origin.y := by linarith [atTopLeft.2]
  rw [size_of_corners (content first rest), size_eq] at atBottomRight
  apply misaligned
  constructor
  · exact congrArg₂ Point.mk x y
  · apply max_eq_right_iff.mp
    linarith [atBottomRight.1]
  · apply max_eq_right_iff.mp
    linarith [atBottomRight.2]

/-- Where the content is aligned, anchoring keeps what it promises exactly if no switch is made
or the switch is made at the anchor point, and the margins leave room; content that is not
aligned it may place elsewhere. -/
theorem prepaint_placed_iff [IsStrictOrderedRing K] (bounds first : Bounds K)
    (rest : List (Bounds K)) :
    (Aligned bounds first rest → ∀ (anchored : Anchored K) (window : AnchoredWindow K),
        anchored.Placed window bounds first rest ↔
          anchored.Anchors window bounds (content first rest).size) ∧
      (¬ Aligned bounds first rest → ∃ (anchored : Anchored K) (window : AnchoredWindow K),
        anchored.Anchors window bounds (content first rest).size ∧
          ¬ anchored.Placed window bounds first rest) :=
  ⟨fun aligned _ _ => aligned.placed_iff, exists_not_placed⟩

/-- A menu that is switched to the right corner without an offset. -/
theorem prepaint_placed_iff_menu :
    (⟨.topLeft, .switchAnchor, some ⟨90, 10⟩, .window, none⟩ : Anchored ℚ).Placed
      ⟨⟨100, 100⟩, none⟩ ⟨⟨5, 5⟩, ⟨20, 20⟩⟩ ⟨⟨5, 5⟩, ⟨20, 20⟩⟩ [] := by
  apply ((prepaint_placed_iff ⟨⟨5, 5⟩, ⟨20, 20⟩⟩ ⟨⟨5, 5⟩, ⟨20, 20⟩⟩ []).1 _ _ _).mpr
  · apply Or.inr
    refine ⟨by decide +kernel, ?_⟩
    apply roomy_of_nonneg <;> decide +kernel
  · constructor <;> decide +kernel

/-- With an offset the switched corner is not where the requested one would have been. -/
theorem not_prepaint_placed :
    ¬ (⟨.topLeft, .switchAnchor, some ⟨90, 10⟩, .window, some ⟨0, 5⟩⟩ : Anchored ℚ).Placed
      ⟨⟨100, 100⟩, none⟩ ⟨⟨5, 5⟩, ⟨20, 20⟩⟩ ⟨⟨5, 5⟩, ⟨20, 20⟩⟩ [] := by
  intro placed
  exact absurd placed.switched (by decide +kernel)

end Anchored

end Gpui

