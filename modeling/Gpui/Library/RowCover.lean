import Mathlib

/-!
# What intervals on rows cover

An interval stands on a row, has a style and reaches from a start to before a stop.  Lists of
intervals are compared by what they cover, however it is cut into intervals and in whatever
order; an interval that does not reach beyond its start covers nothing.
-/

namespace Gpui.Library

structure RowInterval (K S : Type) where
  row : K
  style : S
  start : K
  stop : K
deriving DecidableEq

variable {K S : Type} [LinearOrder K]

def RowInterval.Contains (interval : RowInterval K S) (row : K) (style : S) (x : K) : Prop :=
  interval.row = row ∧ interval.style = style ∧ interval.start ≤ x ∧ x < interval.stop

def Covered (intervals : List (RowInterval K S)) (row : K) (style : S) (x : K) : Prop :=
  ∃ interval ∈ intervals, interval.Contains row style x

/-- The same points are covered, with the same styles. -/
def SameCover (first second : List (RowInterval K S)) : Prop :=
  ∀ row style x, Covered first row style x ↔ Covered second row style x

theorem covered_append {first second : List (RowInterval K S)} {row : K} {style : S} {x : K} :
    Covered (first ++ second) row style x ↔
      Covered first row style x ∨ Covered second row style x := by
  constructor
  · rintro ⟨interval, member, contains⟩
    rcases List.mem_append.mp member with member | member
    · exact Or.inl ⟨interval, member, contains⟩
    · exact Or.inr ⟨interval, member, contains⟩
  · rintro (⟨interval, member, contains⟩ | ⟨interval, member, contains⟩)
    · exact ⟨interval, List.mem_append_left _ member, contains⟩
    · exact ⟨interval, List.mem_append_right _ member, contains⟩

theorem covered_singleton {interval : RowInterval K S} {row : K} {style : S} {x : K} :
    Covered [interval] row style x ↔ interval.Contains row style x := by
  constructor
  · rintro ⟨other, member, contains⟩
    rcases List.mem_singleton.mp member with rfl
    exact contains
  · intro contains
    exact ⟨interval, List.mem_singleton_self _, contains⟩

theorem not_covered_nil {row : K} {style : S} {x : K} : ¬ Covered [] row style x := by
  rintro ⟨interval, member, -⟩
  cases member

namespace SameCover

theorem refl (intervals : List (RowInterval K S)) : SameCover intervals intervals :=
  fun _ _ _ => Iff.rfl

theorem trans {first second third : List (RowInterval K S)} (same : SameCover first second)
    (further : SameCover second third) : SameCover first third :=
  fun row style x => (same row style x).trans (further row style x)

theorem append {first second first' second' : List (RowInterval K S)}
    (same : SameCover first first') (sameThen : SameCover second second') :
    SameCover (first ++ second) (first' ++ second') := by
  intro row style x
  rw [covered_append, covered_append]
  exact or_congr (same row style x) (sameThen row style x)

/-- An interval may be cut in two. -/
theorem split (row : K) (style : S) {start middle stop : K} (after : start ≤ middle)
    (before : middle ≤ stop) :
    SameCover [⟨row, style, start, stop⟩]
      ([⟨row, style, start, middle⟩] ++ [⟨row, style, middle, stop⟩]) := by
  intro otherRow otherStyle x
  rw [covered_append, covered_singleton, covered_singleton, covered_singleton]
  constructor
  · rintro ⟨isRow, isStyle, started, stopped⟩
    rcases lt_or_ge x middle with left | right
    · exact Or.inl ⟨isRow, isStyle, started, left⟩
    · exact Or.inr ⟨isRow, isStyle, right, stopped⟩
  · rintro (⟨isRow, isStyle, started, stopped⟩ | ⟨isRow, isStyle, started, stopped⟩)
    · exact ⟨isRow, isStyle, started, lt_of_lt_of_le stopped before⟩
    · exact ⟨isRow, isStyle, after.trans started, stopped⟩

/-- An interval without width covers nothing. -/
theorem empty {interval : RowInterval K S} (noWidth : interval.stop ≤ interval.start) :
    SameCover [interval] [] := by
  intro row style x
  rw [covered_singleton]
  constructor
  · rintro ⟨-, -, started, stopped⟩
    exact absurd (lt_of_le_of_lt started stopped) (not_lt.mpr noWidth)
  · intro covered
    exact absurd covered not_covered_nil

/-- More of an interval after what is covered already. -/
theorem extend {covered extents : List (RowInterval K S)} {row : K} {style : S}
    {start middle stop : K}
    (same : SameCover (covered ++ [⟨row, style, start, middle⟩]) extents)
    (after : start ≤ middle) (before : middle ≤ stop) :
    SameCover (covered ++ [⟨row, style, start, stop⟩])
      (extents ++ [⟨row, style, middle, stop⟩]) := by
  have cut := (SameCover.refl covered).append (split row style after before)
  rw [← List.append_assoc] at cut
  exact cut.trans (same.append (SameCover.refl _))

/-- Leaving out an interval without width. -/
theorem append_empty {covered extents : List (RowInterval K S)} {interval : RowInterval K S}
    (same : SameCover covered extents) (noWidth : interval.stop ≤ interval.start) :
    SameCover (covered ++ [interval]) extents := by
  have without := same.append (empty noWidth)
  rw [List.append_nil] at without
  exact without

theorem of_append_empty {covered extents : List (RowInterval K S)}
    {interval : RowInterval K S} (same : SameCover (covered ++ [interval]) extents)
    (noWidth : interval.stop ≤ interval.start) : SameCover covered extents := by
  have without := (refl covered).append_empty noWidth
  exact fun row style x => (without row style x).symm.trans (same row style x)

/-- Intervals without width make no difference. -/
theorem append_empties {covered extents : List (RowInterval K S)}
    {first second : RowInterval K S} (same : SameCover covered extents)
    (noWidth : first.stop ≤ first.start) (noWidthThen : second.stop ≤ second.start) :
    SameCover (covered ++ [first]) (extents ++ [second]) :=
  same.append ((empty noWidth).trans fun row style x => (empty noWidthThen row style x).symm)

end SameCover

end Gpui.Library
