import Gpui.Elements.ListScroll

/-!
# The wheel of a list

The listener that a list registers when it is painted accumulates the deltas of the events it
gets, and scrolls by what it has accumulated from the anchor that was painted.  A delta of
another kind or direction overrides what has been accumulated.

A zero has a sign, as it has in floating-point numbers, and its direction is that of its sign.
-/

namespace Gpui

open Library ListItemSummary

/-- A number with a sign of its own. -/
structure SignedNumber (K : Type) [Zero K] [LE K] where
  negative : Bool
  magnitude : K
  nonneg : 0 ≤ magnitude

namespace SignedNumber

variable {K : Type} [Field K] [LinearOrder K] [IsStrictOrderedRing K]

omit [IsStrictOrderedRing K] in
def value (self : SignedNumber K) : K :=
  if self.negative then -self.magnitude else self.magnitude

def ofValue (value : K) : SignedNumber K where
  negative := value < 0
  magnitude := |value|
  nonneg := abs_nonneg value

theorem add_nonneg (self other : SignedNumber K) : 0 ≤ self.magnitude + other.magnitude :=
  Left.add_nonneg self.nonneg other.nonneg

theorem mul_nonneg (self other : SignedNumber K) : 0 ≤ self.magnitude * other.magnitude :=
  Left.mul_nonneg self.nonneg other.nonneg

def add (self other : SignedNumber K) : SignedNumber K :=
  if self.negative = other.negative then
    ⟨self.negative, self.magnitude + other.magnitude, add_nonneg self other⟩
  else ofValue (self.value + other.value)

def mul (self other : SignedNumber K) : SignedNumber K :=
  ⟨self.negative != other.negative, self.magnitude * other.magnitude, mul_nonneg self other⟩

omit [IsStrictOrderedRing K] in
/-- `signum`, which no zero has in `f32`. -/
def signum (self : SignedNumber K) : K :=
  if self.negative then -1 else 1

end SignedNumber

inductive ScrollDelta (K : Type) [Zero K] [LE K] where
  | pixels (delta : Point (SignedNumber K))
  | lines (delta : Point (SignedNumber K))

namespace ScrollDelta

variable {K : Type} [Field K] [LinearOrder K] [IsStrictOrderedRing K]

/-- `ScrollDelta::default`. -/
def none : ScrollDelta K :=
  lines ⟨.ofValue 0, .ofValue 0⟩

omit [IsStrictOrderedRing K] in
def precise : ScrollDelta K → Bool
  | pixels _ => true
  | lines _ => false

omit [IsStrictOrderedRing K] in
def delta : ScrollDelta K → Point (SignedNumber K)
  | pixels delta => delta
  | lines delta => delta

def pixelDelta (self : ScrollDelta K) (lineHeight : SignedNumber K) : Point (SignedNumber K) :=
  match self with
  | pixels delta => delta
  | lines delta => ⟨lineHeight.mul delta.x, lineHeight.mul delta.y⟩

/-- The sum of two numbers with the same sign, or the second of them. -/
def coalesceNumber (number other : SignedNumber K) : SignedNumber K :=
  if number.signum = other.signum then number.add other else other

def coalesce (self other : ScrollDelta K) : ScrollDelta K :=
  match self, other with
  | pixels a, pixels b => pixels ⟨coalesceNumber a.x b.x, coalesceNumber a.y b.y⟩
  | lines a, lines b => lines ⟨coalesceNumber a.x b.x, coalesceNumber a.y b.y⟩
  | _, other => other

end ScrollDelta

namespace ListState

variable {F K : Type} [Field K] [LinearOrder K] [IsStrictOrderedRing K] {S : ListItems F K}

/-- The lines that the listener takes a line for: `px(20.)`. -/
def lineHeight : SignedNumber K :=
  .ofValue 20

omit [IsStrictOrderedRing K] in
/-- A delta in pixels, as `scroll` takes it. -/
def pixels (delta : Point (SignedNumber K)) : Point K :=
  ⟨delta.x.value, delta.y.value⟩

/-- The listener gets an event.  The anchor and the height are those that were painted. -/
def onScrollWheel (scrollTop : ListOffset K) (height : K)
    (accumulated : ScrollDelta K × ListState S) (delta : ScrollDelta K) :
    ScrollDelta K × ListState S :=
  let accumulatedScrollDelta := accumulated.1.coalesce delta
  (accumulatedScrollDelta,
    (accumulated.2.scroll scrollTop height
      (pixels (accumulatedScrollDelta.pixelDelta lineHeight))).1)

/-- The events between two paints. -/
def onScrollWheels (self : ListState S) (scrollTop : ListOffset K) (height : K)
    (deltas : List (ScrollDelta K)) : ListState S :=
  (deltas.foldl (onScrollWheel scrollTop height) (.none, self)).2

/-- How far an event scrolls by itself. -/
def wheelDelta (delta : ScrollDelta K) : K :=
  (delta.pixelDelta lineHeight).y.value

/-- The view starts where it did, moved by the sum of the deltas. -/
def ScrollsBySum (self : ListState S) (scrollTop : ListOffset K) (height : K)
    (deltas : List (ScrollDelta K)) : Prop :=
  let next := self.onScrollWheels scrollTop height deltas
  (deltas = [] → next = self) ∧
    (deltas ≠ [] →
      next.viewTop height = self.scrollTop scrollTop - (deltas.map wheelDelta).sum)

end ListState

namespace ScrollDelta

variable {K : Type} [Field K] [LinearOrder K] [IsStrictOrderedRing K]

omit [IsStrictOrderedRing K] in
/-- The same kind and the same vertical direction. -/
def Agrees (self other : ScrollDelta K) : Prop :=
  self.precise = other.precise ∧ self.delta.y.negative = other.delta.y.negative

omit [IsStrictOrderedRing K] in
/-- The last deltas that agree with each other, and what comes before them. -/
structure LastStretch (before : List (ScrollDelta K)) (first : ScrollDelta K)
    (after : List (ScrollDelta K)) : Prop where
  agree : (first :: after).IsChain Agrees
  changes : ∀ last ∈ before.getLast?, ¬ last.Agrees first

end ScrollDelta

/-! ## Accumulated deltas -/

namespace SignedNumber

variable {K : Type} [Field K] [LinearOrder K] [IsStrictOrderedRing K]

theorem signum_eq_iff (first second : SignedNumber K) :
    first.signum = second.signum ↔ first.negative = second.negative := by
  have differs : (-1 : K) ≠ 1 := by norm_num
  rcases first with ⟨isNegative, magnitude, nonneg⟩
  rcases second with ⟨isOther, other, otherNonneg⟩
  cases isNegative with
  | false =>
      cases isOther with
      | false => simp [signum]
      | true => simp [signum, differs.symm]
  | true =>
      cases isOther with
      | false => simp [signum, differs]
      | true => simp [signum]

theorem value_add {first second : SignedNumber K} (same : first.negative = second.negative) :
    (first.add second).value = first.value + second.value := by
  rw [add, if_pos same]
  cases isNegative : second.negative with
  | false => simp [value, same, isNegative]
  | true =>
      simp only [value, same, isNegative, if_true]
      exact neg_add _ _

theorem negative_add {first second : SignedNumber K} (same : first.negative = second.negative) :
    (first.add second).negative = second.negative := by
  rw [add, if_pos same]
  exact same

theorem value_mul (first second : SignedNumber K) :
    (first.mul second).value = first.value * second.value := by
  cases isNegative : first.negative with
  | false =>
      cases isOther : second.negative with
      | false => simp [value, mul, isNegative, isOther]
      | true => simp [value, mul, isNegative, isOther]
  | true =>
      cases isOther : second.negative with
      | false => simp [value, mul, isNegative, isOther]
      | true => simp [value, mul, isNegative, isOther]

theorem value_ofValue (number : K) : (ofValue number).value = number := by
  by_cases negative : number < 0
  · simp [value, ofValue, negative, abs_of_neg negative]
  · simp [value, ofValue, negative, abs_of_nonneg (not_lt.mp negative)]

end SignedNumber

namespace ListState

open ScrollDelta

variable {F K : Type} [Field K] [LinearOrder K] [IsStrictOrderedRing K] {S : ListItems F K}

theorem wheelDelta_pixels (delta : Point (SignedNumber K)) :
    wheelDelta (.pixels delta) = delta.y.value := rfl

theorem wheelDelta_lines (delta : Point (SignedNumber K)) :
    wheelDelta (.lines delta) = 20 * delta.y.value := by
  rw [wheelDelta, pixelDelta, SignedNumber.value_mul, lineHeight, SignedNumber.value_ofValue]

theorem coalesceNumber_negative (number other : SignedNumber K) :
    (coalesceNumber number other).negative = other.negative := by
  rw [coalesceNumber]
  by_cases same : number.signum = other.signum
  · rw [if_pos same]
    exact SignedNumber.negative_add ((SignedNumber.signum_eq_iff _ _).mp same)
  · rw [if_neg same]

theorem coalesceNumber_value (number other : SignedNumber K) :
    (coalesceNumber number other).value =
      if number.negative = other.negative then number.value + other.value else other.value := by
  rw [coalesceNumber]
  by_cases same : number.negative = other.negative
  · rw [if_pos ((SignedNumber.signum_eq_iff _ _).mpr same), if_pos same,
      SignedNumber.value_add same]
  · rw [if_neg (mt (SignedNumber.signum_eq_iff _ _).mp same), if_neg same]

/-- A delta is added to one that it agrees with, and overrides others. -/
theorem coalesce_agrees {self other : ScrollDelta K} (agrees : self.Agrees other) :
    wheelDelta (self.coalesce other) = wheelDelta self + wheelDelta other := by
  rcases agrees with ⟨kind, direction⟩
  cases self with
  | pixels a =>
      cases other with
      | pixels b =>
          rw [coalesce, wheelDelta_pixels, wheelDelta_pixels, wheelDelta_pixels]
          exact (coalesceNumber_value a.y b.y).trans (if_pos direction)
      | lines b => cases kind
  | lines a =>
      cases other with
      | pixels b => cases kind
      | lines b =>
          rw [coalesce, wheelDelta_lines, wheelDelta_lines, wheelDelta_lines, ← mul_add]
          exact congrArg (20 * ·) ((coalesceNumber_value a.y b.y).trans (if_pos direction))

theorem coalesce_changes {self other : ScrollDelta K} (changes : ¬ self.Agrees other) :
    wheelDelta (self.coalesce other) = wheelDelta other := by
  cases self with
  | pixels a =>
      cases other with
      | pixels b =>
          have direction : a.y.negative ≠ b.y.negative := fun same => changes ⟨rfl, same⟩
          rw [coalesce, wheelDelta_pixels, wheelDelta_pixels]
          exact (coalesceNumber_value a.y b.y).trans (if_neg direction)
      | lines b => rfl
  | lines a =>
      cases other with
      | pixels b => rfl
      | lines b =>
          have direction : a.y.negative ≠ b.y.negative := fun same => changes ⟨rfl, same⟩
          rw [coalesce, wheelDelta_lines, wheelDelta_lines]
          exact congrArg (20 * ·) ((coalesceNumber_value a.y b.y).trans (if_neg direction))

/-- What is accumulated has the kind and the direction of the last delta. -/
theorem coalesce_agrees_iff (self other next : ScrollDelta K) :
    (self.coalesce other).Agrees next ↔ other.Agrees next := by
  cases self with
  | pixels a =>
      cases other with
      | pixels b =>
          simp only [Agrees, coalesce, delta, precise, coalesceNumber_negative]
      | lines b => rfl
  | lines a =>
      cases other with
      | pixels b => rfl
      | lines b =>
          simp only [Agrees, coalesce, delta, precise, coalesceNumber_negative]

theorem wheelDelta_none : wheelDelta (.none : ScrollDelta K) = 0 := by
  rw [ScrollDelta.none, wheelDelta_lines, SignedNumber.value_ofValue, mul_zero]

/-- What the events add up to, as the listener accumulates them. -/
def accumulate (deltas : List (ScrollDelta K)) : ScrollDelta K :=
  deltas.foldl coalesce .none

theorem accumulate_snoc (deltas : List (ScrollDelta K)) (delta : ScrollDelta K) :
    accumulate (deltas ++ [delta]) = (accumulate deltas).coalesce delta := by
  simp [accumulate]

/-- The accumulated delta is the sum of the last deltas that agree with each other. -/
theorem accumulate_lastStretch {before after : List (ScrollDelta K)} {first : ScrollDelta K}
    (stretch : LastStretch before first after) :
    wheelDelta (accumulate (before ++ first :: after)) =
      ((first :: after).map wheelDelta).sum := by
  induction after using List.reverseRecOn with
  | nil =>
      rw [accumulate_snoc, List.map_singleton, List.sum_singleton]
      rcases List.eq_nil_or_concat before with rfl | ⟨earlier, last, rfl⟩
      · by_cases agrees : (accumulate [] : ScrollDelta K).Agrees first
        · rw [coalesce_agrees agrees, accumulate, List.foldl_nil, wheelDelta_none, zero_add]
        · exact coalesce_changes agrees
      · have changes := stretch.changes last (by simp)
        apply coalesce_changes
        rw [List.concat_eq_append, accumulate_snoc, coalesce_agrees_iff]
        exact changes
  | append_singleton after delta ih =>
      have agree := stretch.agree
      rw [← List.cons_append, List.isChain_append] at agree
      have earlier := ih ⟨agree.1, stretch.changes⟩
      have agrees : (accumulate (before ++ first :: after)).Agrees delta := by
        rcases List.eq_nil_or_concat (before ++ first :: after) with isNil | ⟨front, last, isLast⟩
        · simp at isNil
        · rw [List.concat_eq_append] at isLast
          rw [isLast, accumulate_snoc, coalesce_agrees_iff]
          apply agree.2.2 last _ delta (by simp)
          have getLast := congrArg List.getLast? isLast
          simpa [List.getLast?_append] using getLast
      rw [← List.cons_append, ← List.append_assoc, accumulate_snoc, coalesce_agrees agrees,
        earlier, List.map_append, List.sum_append, List.map_singleton, List.sum_singleton]

omit [IsStrictOrderedRing K] in
theorem exists_lastStretch {deltas : List (ScrollDelta K)} (nonempty : deltas ≠ []) :
    ∃ before first after, deltas = before ++ first :: after ∧ LastStretch before first after := by
  induction deltas using List.reverseRecOn with
  | nil => exact absurd rfl nonempty
  | append_singleton deltas delta ih =>
      by_cases agrees : ∃ last ∈ deltas.getLast?, last.Agrees delta
      · rcases agrees with ⟨last, isLast, agrees⟩
        have filled : deltas ≠ [] := by
          rintro rfl
          cases isLast
        rcases ih filled with ⟨before, first, after, rfl, stretch⟩
        refine ⟨before, first, after ++ [delta], by simp, ?_, stretch.changes⟩
        rw [← List.cons_append, List.isChain_append]
        refine ⟨stretch.agree, .singleton _, ?_⟩
        intro other isOther next isNext
        have joined : (before ++ first :: after).getLast? = some other := by
          rw [List.getLast?_append, Option.mem_def.mp isOther]
          rfl
        rcases Option.some.inj (joined.symm.trans isLast) with rfl
        rcases Option.some.inj isNext with rfl
        exact agrees
      · refine ⟨deltas, delta, [], rfl, .singleton _, ?_⟩
        intro last isLast agree
        exact agrees ⟨last, isLast, agree⟩

/-! ## Scrolling -/

omit [IsStrictOrderedRing K] in
/-- Scrolling changes the anchor only, so of several scrolls from one anchor the last counts. -/
theorem scroll_scroll (self : ListState S) (scrollTop : ListOffset K) (height : K)
    (first second : Point K) :
    ((self.scroll scrollTop height first).1.scroll scrollTop height second).1 =
      (self.scroll scrollTop height second).1 := by
  by_cases isReset : self.isReset = true
  · simp only [scroll, isReset, if_true]
  · simp only [scroll, isReset]
    rfl

theorem onScrollWheels_snoc (self : ListState S) (scrollTop : ListOffset K) (height : K)
    (deltas : List (ScrollDelta K)) (delta : ScrollDelta K) :
    self.onScrollWheels scrollTop height (deltas ++ [delta]) =
      (self.scroll scrollTop height
        (pixels ((accumulate (deltas ++ [delta])).pixelDelta lineHeight))).1 := by
  have folded : ∀ deltas : List (ScrollDelta K),
      (deltas.foldl (onScrollWheel scrollTop height) (.none, self)).1 = accumulate deltas := by
    intro deltas
    induction deltas using List.reverseRecOn with
    | nil => rfl
    | append_singleton deltas delta ih =>
        rw [List.foldl_append, List.foldl_cons, List.foldl_nil, accumulate_snoc, ← ih]
        rfl
  have scrolled : ∀ other : Point K,
      ((deltas.foldl (onScrollWheel scrollTop height) (.none, self)).2.scroll scrollTop height
        other).1 = (self.scroll scrollTop height other).1 := by
    induction deltas using List.reverseRecOn with
    | nil =>
        intro other
        rfl
    | append_singleton deltas delta ih =>
        intro other
        rw [List.foldl_append, List.foldl_cons, List.foldl_nil, onScrollWheel, scroll_scroll]
        exact ih other
  rw [onScrollWheels, List.foldl_append, List.foldl_cons, List.foldl_nil, onScrollWheel, folded,
    ← accumulate_snoc]
  exact scrolled _

/-- Where the view starts after an event, if the list can be scrolled. -/
theorem viewTop_scroll_eq (state : ListState S)
    (heights : ListItem.Heights (S.items state.items)) (notReset : state.isReset = false)
    {height : K} (scrollable : 0 < state.scrollMax height) (scrollTop : ListOffset K)
    (delta : Point K) :
    (state.scroll scrollTop height delta).1.viewTop height =
      min (max (state.scrollTop scrollTop - delta.y) 0) (state.scrollMax height) := by
  have atScroll := viewTop_scroll state heights scrollTop height delta
  rw [scroll, if_neg (Bool.eq_false_iff.mp notReset)]
  dsimp only
  rw [atScroll, scrolledTo]
  have isMax : state.scrollMax height = state.contentHeight +
      (state.lastPadding.getD .zero).top + (state.lastPadding.getD .zero).bottom - height := by
    rw [scrollMax] at scrollable ⊢
    rcases lt_max_iff.mp scrollable with positive | absurdly
    · exact max_eq_left positive.le
    · exact absurd absurdly (lt_irrefl _)
  split_ifs with atEnd
  · rw [← isMax, atEnd.2]
  · rfl

/-- The events scroll by the sum of their deltas if and only if the deltas before the last
stretch of one kind and direction add up to nothing. -/
theorem scrollsBySum_iff (state : ListState S)
    (heights : ListItem.Heights (S.items state.items)) (notReset : state.isReset = false)
    (scrollTop : ListOffset K) (height : K) (deltas : List (ScrollDelta K))
    (inside : 0 < state.scrollTop scrollTop - (deltas.map wheelDelta).sum ∧
      state.scrollTop scrollTop - (deltas.map wheelDelta).sum < state.scrollMax height) :
    state.ScrollsBySum scrollTop height deltas ↔
      ∀ before first after, deltas = before ++ first :: after → LastStretch before first after →
        (before.map wheelDelta).sum = 0 := by
  have scrollable := inside.1.trans inside.2
  have moves : deltas ≠ [] →
      ((state.onScrollWheels scrollTop height deltas).viewTop height =
          state.scrollTop scrollTop - (deltas.map wheelDelta).sum ↔
        wheelDelta (accumulate deltas) = (deltas.map wheelDelta).sum) := by
    intro nonempty
    rcases List.eq_nil_or_concat deltas with rfl | ⟨front, last, rfl⟩
    · exact absurd rfl nonempty
    · rw [List.concat_eq_append] at inside ⊢
      rw [onScrollWheels_snoc, viewTop_scroll_eq state heights notReset scrollable]
      have isDelta : (pixels ((accumulate (front ++ [last])).pixelDelta lineHeight)).y =
          wheelDelta (accumulate (front ++ [last])) := rfl
      rw [isDelta]
      constructor
      · intro clamped
        have below : max (state.scrollTop scrollTop - wheelDelta (accumulate (front ++ [last]))) 0 <
            state.scrollMax height := by
          by_contra above
          rw [min_eq_right (not_lt.mp above)] at clamped
          exact inside.2.ne clamped.symm
        rw [min_eq_left below.le] at clamped
        have above : 0 < state.scrollTop scrollTop - wheelDelta (accumulate (front ++ [last])) := by
          by_contra notAbove
          rw [max_eq_right (not_lt.mp notAbove)] at clamped
          exact inside.1.ne clamped
        rw [max_eq_left above.le] at clamped
        exact sub_right_injective clamped
      · intro same
        rw [same, max_eq_left inside.1.le, min_eq_left inside.2.le]
  have split : ∀ before first after, deltas = before ++ first :: after →
      LastStretch before first after →
        (wheelDelta (accumulate deltas) = (deltas.map wheelDelta).sum ↔
          (before.map wheelDelta).sum = 0) := by
    rintro before first after rfl stretch
    rw [accumulate_lastStretch stretch, List.map_append, List.sum_append]
    exact right_eq_add
  constructor
  · rintro ⟨-, bySum⟩ before first after isSplit stretch
    have nonempty : deltas ≠ [] := by
      rw [isSplit]
      simp
    exact (split before first after isSplit stretch).mp ((moves nonempty).mp (bySum nonempty))
  · intro nothingBefore
    constructor
    · rintro rfl
      rfl
    · intro nonempty
      rcases exists_lastStretch nonempty with ⟨before, first, after, isSplit, stretch⟩
      exact (moves nonempty).mpr ((split before first after isSplit stretch).mpr
        (nothingBefore before first after isSplit stretch))

/-- The positions that the events would scroll to by themselves are inside the scroll range. -/
def StaysInside (self : ListState S) (scrollTop : ListOffset K) (height : K)
    (deltas : List (ScrollDelta K)) : Prop :=
  ∀ n < deltas.length,
    0 < self.scrollTop scrollTop - ((deltas.take (n + 1)).map wheelDelta).sum ∧
      self.scrollTop scrollTop - ((deltas.take (n + 1)).map wheelDelta).sum < self.scrollMax height

omit [IsStrictOrderedRing K] in
theorem lastStretch_of_isChain {deltas before after : List (ScrollDelta K)}
    {first : ScrollDelta K} (agree : deltas.IsChain Agrees)
    (split : deltas = before ++ first :: after) (stretch : LastStretch before first after) :
    before = [] := by
  rcases List.eq_nil_or_concat before with isNil | ⟨earlier, last, rfl⟩
  · exact isNil
  · rw [split, List.concat_eq_append, List.isChain_append] at agree
    have changes := stretch.changes last (by simp)
    exact absurd (agree.2.2 last (by simp) first rfl) changes

/-- The events scroll by the sum of the deltas of the last stretch of one kind and direction, as
far as the list can be scrolled, which are all deltas if none changes these. -/
theorem onScrollWheels_lastStretch (state : ListState S)
    (heights : ListItem.Heights (S.items state.items)) (notReset : state.isReset = false)
    (scrollTop : ListOffset K) (height : K) (deltas : List (ScrollDelta K))
    (inside : state.StaysInside scrollTop height deltas) :
    (deltas ≠ [] → ∃ before first after, deltas = before ++ first :: after ∧
      LastStretch before first after ∧
      (state.onScrollWheels scrollTop height deltas).viewTop height =
        min (max (state.scrollTop scrollTop - ((first :: after).map wheelDelta).sum) 0)
          (state.scrollMax height)) ∧
    (deltas.IsChain Agrees → state.ScrollsBySum scrollTop height deltas) := by
  constructor
  · intro nonempty
    rcases exists_lastStretch nonempty with ⟨before, first, after, split, stretch⟩
    refine ⟨before, first, after, split, stretch, ?_⟩
    have isInside := inside 0 (List.length_pos_of_ne_nil nonempty)
    have accumulated := accumulate_lastStretch stretch
    rcases List.eq_nil_or_concat deltas with rfl | ⟨front, last, rfl⟩
    · simp at split
    · rw [List.concat_eq_append] at split ⊢
      rw [onScrollWheels_snoc, viewTop_scroll_eq state heights notReset
        (isInside.1.trans isInside.2), ← accumulated, ← split]
      rfl
  · intro agree
    by_cases nonempty : deltas = []
    · rcases nonempty with rfl
      exact ⟨fun _ => rfl, fun filled => absurd rfl filled⟩
    · have positive := List.length_pos_of_ne_nil nonempty
      have atEnd := inside (deltas.length - 1) (by omega)
      rw [Nat.sub_add_cancel positive, List.take_length] at atEnd
      apply (scrollsBySum_iff state heights notReset scrollTop height deltas atEnd).mpr
      intro before first after split stretch
      rw [lastStretch_of_isChain agree split stretch]
      rfl

/-- Two lines down. -/
theorem onScrollWheels_lastStretch_down :
    let deltas : List (ScrollDelta ℚ) :=
      [.lines ⟨.ofValue 0, .ofValue (-1)⟩, .lines ⟨.ofValue 0, .ofValue (-1)⟩]
    let state := measured .top [100, 100] 50
    (deltas ≠ [] → ∃ before first after, deltas = before ++ first :: after ∧
      LastStretch before first after ∧
      (state.onScrollWheels ⟨0, 60⟩ 50 deltas).viewTop 50 =
        min (max (state.scrollTop ⟨0, 60⟩ - ((first :: after).map wheelDelta).sum) 0)
          (state.scrollMax 50)) ∧
    (deltas.IsChain Agrees → state.ScrollsBySum ⟨0, 60⟩ 50 deltas) :=
  onScrollWheels_lastStretch (measured .top [100, 100] 50)
    (by unfold ListItem.Heights; decide +kernel) rfl ⟨0, 60⟩ 50 _
    (by unfold StaysInside; decide +kernel)

/-- A line up and a line down scroll by the line down. -/
theorem not_scrollsBySum :
    let deltas : List (ScrollDelta ℚ) :=
      [.lines ⟨.ofValue 0, .ofValue 1⟩, .lines ⟨.ofValue 0, .ofValue (-1)⟩]
    (measured .top [100, 100] 50).StaysInside ⟨0, 60⟩ 50 deltas ∧
      ¬ (measured .top [100, 100] 50).ScrollsBySum ⟨0, 60⟩ 50 deltas := by
  constructor
  · unfold StaysInside
    decide +kernel
  · rintro ⟨-, bySum⟩
    have moved := bySum (by simp)
    exact absurd moved (by decide +kernel)

end ListState

end Gpui
