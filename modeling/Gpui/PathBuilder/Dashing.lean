import Mathlib

/-!
# Dashing a stroke

A stroked path is cut into dashes by a loop that reads the dash array round and round.
Lengths are exact here.  The sampler that measures the path is left out but for the length
it gives.
-/

namespace Gpui

/-- `dash_array`: an odd number of values is repeated. -/
def dashArray (dashArray : List ℚ) : List ℚ :=
  if dashArray.length % 2 = 1 then dashArray ++ dashArray else dashArray

inductive DashOutcome where
  | finished (ranges : List (ℚ × ℚ))
  | dividedByZero
  /-- The rounds do not suffice. -/
  | running
deriving DecidableEq

/-- The loop of `tessellate_stroke`, with the ranges at which it has split the path. -/
def dashRounds (dashArray : List ℚ) (totalLength : ℚ) :
    Nat → ℚ → Nat → List (ℚ × ℚ) → DashOutcome
  | rounds, pos, dashIndex, ranges =>
      if pos < totalLength then
        match rounds with
        | 0 => .running
        | rounds + 1 =>
            -- Only the remainder by the length of an empty array is out of its bounds.
            match dashArray[dashIndex % dashArray.length]? with
            | none => .dividedByZero
            | some dashLength =>
                let nextPos := min (pos + dashLength) totalLength
                if dashIndex % 2 = 0 then
                  if totalLength = 0 then .dividedByZero
                  else
                    dashRounds dashArray totalLength rounds nextPos (dashIndex + 1)
                      (ranges ++ [(pos / totalLength, nextPos / totalLength)])
                else dashRounds dashArray totalLength rounds nextPos (dashIndex + 1) ranges
      else .finished ranges

/-- Dash a stroke, for so many rounds. -/
def dashStroke (dashes : List ℚ) (totalLength : ℚ) (rounds : Nat) : DashOutcome :=
  dashRounds (dashArray dashes) totalLength rounds 0 0 []

/-! ## The pattern -/

/-- A value of the array, read cyclically. -/
def dashAt (array : List ℚ) (index : Nat) : ℚ :=
  array[index % array.length]?.getD 0

/-- Where the interval with this index begins. -/
def dashStart (array : List ℚ) : Nat → ℚ
  | 0 => 0
  | index + 1 => dashStart array index + dashAt array index

/-- The interval with this index, cut at the total length, if it is a dash. -/
def dashRange (array : List ℚ) (totalLength : ℚ) (index : Nat) : Option (ℚ × ℚ) :=
  if index % 2 = 0 then
    some (dashStart array index / totalLength,
      min (dashStart array (index + 1)) totalLength / totalLength)
  else none

/-- The dashes of the pattern as far as the total length, in order and disjoint. -/
structure PartitionsStroke (array : List ℚ) (totalLength : ℚ) (ranges : List (ℚ × ℚ)) :
    Prop where
  exact : ∃ count, (∀ index < count, dashStart array index < totalLength) ∧
    totalLength ≤ dashStart array count ∧
      ranges = (List.range count).filterMap (dashRange array totalLength)
  ordered : ∀ range ∈ ranges, range.1 ≤ range.2
  disjoint : ranges.Pairwise fun range later => range.2 ≤ later.1

/-- The loop ends without a division by zero, and partitions the stroke. -/
def DashesStroke (dashes : List ℚ) (totalLength : ℚ) : Prop :=
  ∃ rounds ranges, dashStroke dashes totalLength rounds = .finished ranges ∧
    PartitionsStroke (dashArray dashes) totalLength ranges

/-- There is nothing to dash, or no value is negative and some value is positive, or the
values before the first negative one are enough. -/
def Dashable (dashes : List ℚ) (totalLength : ℚ) : Prop :=
  totalLength ≤ 0 ∨ ((∀ dash ∈ dashes, 0 ≤ dash) ∧ ∃ dash ∈ dashes, 0 < dash) ∨
    totalLength ≤ (dashes.takeWhile fun dash => 0 ≤ dash).sum

/-! ## The loop follows the pattern -/

variable {array : List ℚ} {totalLength : ℚ}

theorem getElem?_dashAt (nonempty : array ≠ []) (index : Nat) :
    array[index % array.length]? = some (dashAt array index) := by
  have inside : index % array.length < array.length :=
    Nat.mod_lt _ (List.length_pos_iff.mpr nonempty)
  rw [dashAt, List.getElem?_eq_getElem inside, Option.getD_some]

/-- One round, from where an interval of the pattern begins. -/
theorem dashRounds_succ (nonempty : array ≠ []) (positive : 0 < totalLength) {index : Nat}
    (before : dashStart array index < totalLength) (rounds : Nat) (ranges : List (ℚ × ℚ)) :
    dashRounds array totalLength (rounds + 1) (dashStart array index) index ranges =
      dashRounds array totalLength rounds (min (dashStart array (index + 1)) totalLength)
        (index + 1) (ranges ++ (dashRange array totalLength index).toList) := by
  rw [dashRounds, if_pos before]
  simp only [getElem?_dashAt nonempty]
  rw [dashRange, dashStart]
  by_cases even : index % 2 = 0
  · rw [if_pos even, if_pos even, if_neg positive.ne']
    rfl
  · rw [if_neg even, if_neg even, Option.toList_none, List.append_nil]

theorem dashRounds_of_not_before {pos : ℚ} (after : ¬ pos < totalLength) (rounds index : Nat)
    (ranges : List (ℚ × ℚ)) :
    dashRounds array totalLength rounds pos index ranges = .finished ranges := by
  cases rounds with
  | zero => rw [dashRounds, if_neg after]
  | succ rounds => rw [dashRounds, if_neg after]

/-- The loop ends when the pattern has reached the total length. -/
theorem dashRounds_of_reaches (nonempty : array ≠ []) (positive : 0 < totalLength)
    {count index : Nat} (ranges : List (ℚ × ℚ))
    (before : ∀ other, index ≤ other → other < index + count →
      dashStart array other < totalLength)
    (reaches : totalLength ≤ dashStart array (index + count)) :
    dashRounds array totalLength count (min (dashStart array index) totalLength) index ranges =
      .finished
        (ranges ++ (List.range' index count).filterMap (dashRange array totalLength)) := by
  induction count generalizing index ranges with
  | zero =>
      rw [Nat.add_zero] at reaches
      rw [min_eq_right reaches, dashRounds_of_not_before (lt_irrefl _), List.range'_zero,
        List.filterMap_nil, List.append_nil]
  | succ count ih =>
      have here := before index le_rfl (Nat.lt_add_of_pos_right (Nat.succ_pos _))
      have next : index + (count + 1) = index + 1 + count := by ring
      rw [next] at reaches
      have later (other : Nat) (above : index + 1 ≤ other) (below : other < index + 1 + count) :
          dashStart array other < totalLength :=
        before other (Nat.le_of_succ_le above) (next ▸ below)
      rw [min_eq_left here.le, dashRounds_succ nonempty positive here, ih _ later reaches,
        List.range'_succ, List.filterMap_cons, List.append_assoc]
      cases dashRange array totalLength index with
      | none => rfl
      | some range => rfl

/-! ## Arrays that can be dashed -/

/-- The pattern up to an interval does not go back. -/
def Forward (array : List ℚ) (count : Nat) : Prop :=
  ∀ index < count, 0 ≤ dashAt array index

theorem dashStart_le_of_forward {count : Nat} (forward : Forward array count)
    {index later : Nat} (ordered : index ≤ later) (within : later ≤ count) :
    dashStart array index ≤ dashStart array later := by
  induction later, ordered using Nat.le_induction with
  | base => exact le_rfl
  | succ later _ ih =>
      have below := forward later within
      rw [dashStart]
      exact (ih (Nat.le_of_succ_le within)).trans (le_add_of_nonneg_right below)

theorem dashStart_nil (index : Nat) : dashStart [] index = 0 := by
  induction index with
  | zero => rfl
  | succ index ih => rw [dashStart, ih, dashAt, List.getElem?_nil, Option.getD_none, add_zero]

theorem dashRange_eq_some_iff {index : Nat} {range : ℚ × ℚ} :
    dashRange array totalLength index = some range ↔
      index % 2 = 0 ∧ (dashStart array index / totalLength,
        min (dashStart array (index + 1)) totalLength / totalLength) = range := by
  rw [dashRange, Option.ite_none_right_eq_some, Option.some.injEq]

/-- What a pattern that goes forward has before the total length is in order. -/
theorem partitionsStroke_of_forward (positive : 0 < totalLength) {count : Nat}
    (forward : Forward array count)
    (before : ∀ index < count, dashStart array index < totalLength)
    (reaches : totalLength ≤ dashStart array count) :
    PartitionsStroke array totalLength
      ((List.range count).filterMap (dashRange array totalLength)) where
  exact := ⟨count, before, reaches, rfl⟩
  ordered := by
    intro range member
    rcases List.mem_filterMap.mp member with ⟨index, inside, found⟩
    rcases dashRange_eq_some_iff.1 found with ⟨_, rfl⟩
    have below := List.mem_range.mp inside
    apply div_le_div_of_nonneg_right _ positive.le
    apply le_min
    · exact dashStart_le_of_forward forward (Nat.le_succ index) below
    · exact (before index below).le
  disjoint := by
    apply List.pairwise_filterMap.mpr
    apply List.Pairwise.imp_of_mem _ List.pairwise_lt_range
    intro index later _ inside ordered range found laterRange foundLater
    rcases dashRange_eq_some_iff.1 found with ⟨_, rfl⟩
    rcases dashRange_eq_some_iff.1 foundLater with ⟨_, rfl⟩
    apply div_le_div_of_nonneg_right _ positive.le
    apply (min_le_left _ _).trans
    exact dashStart_le_of_forward forward ordered (List.mem_range.mp inside).le

/-- A pattern that goes forward as far as the total length is dashed. -/
theorem dashesStroke_of_forward {dashes : List ℚ} (positive : 0 < totalLength) {count : Nat}
    (forward : Forward (dashArray dashes) count)
    (reaches : totalLength ≤ dashStart (dashArray dashes) count) :
    DashesStroke dashes totalLength := by
  -- The loop ends at the first interval that begins so far out.
  have reached : ∃ count, totalLength ≤ dashStart (dashArray dashes) count := ⟨count, reaches⟩
  have before : ∀ index < Nat.find reached, dashStart (dashArray dashes) index < totalLength :=
    fun index below => not_le.mp (Nat.find_min reached below)
  have within : Nat.find reached ≤ count := Nat.find_min' reached reaches
  have reachesFirst := Nat.find_spec reached
  generalize Nat.find reached = first at before within reachesFirst
  have nonempty : dashArray dashes ≠ [] := by
    intro empty
    rw [empty, dashStart_nil] at reaches
    exact absurd reaches (not_le.mpr positive)
  have ends := dashRounds_of_reaches nonempty positive []
    (fun other _ below => before other (by rwa [Nat.zero_add] at below))
    (by rwa [Nat.zero_add])
  rw [dashStart, min_eq_left positive.le, List.nil_append, ← List.range_eq_range'] at ends
  refine ⟨first, _, ends, partitionsStroke_of_forward positive ?_ before reachesFirst⟩
  exact fun index below => forward index (below.trans_le within)

/-- Dashes in order and disjoint come of a pattern that goes forward. -/
theorem forward_of_partitionsStroke (positive : 0 < totalLength) {ranges : List (ℚ × ℚ)}
    (partitions : PartitionsStroke array totalLength ranges) :
    ∃ count, Forward array count ∧ totalLength ≤ dashStart array count := by
  rcases partitions.exact with ⟨count, before, reaches, rfl⟩
  refine ⟨count, ?_, reaches⟩
  intro index below
  have steps : dashStart array index ≤ dashStart array (index + 1) := by
    by_cases last : index + 1 = count
    · rw [last]
      exact (before index below).le.trans reaches
    · have nextBelow : index + 1 < count := lt_of_le_of_ne below last
      have nextBefore := before (index + 1) nextBelow
      rcases Nat.mod_two_eq_zero_or_one index with even | odd
      · have member : (dashStart array index / totalLength,
            min (dashStart array (index + 1)) totalLength / totalLength) ∈
            (List.range count).filterMap (dashRange array totalLength) :=
          List.mem_filterMap.mpr ⟨index, List.mem_range.mpr below,
            dashRange_eq_some_iff.2 ⟨even, rfl⟩⟩
        have ordered := partitions.ordered _ member
        rw [div_le_div_iff_of_pos_right positive, min_eq_left nextBefore.le] at ordered
        exact ordered
      · -- The dashes on both sides of a gap are disjoint.
        rcases Nat.exists_eq_succ_of_ne_zero (n := index) (by rintro rfl; cases odd) with
          ⟨previous, rfl⟩
        have pairwise := List.pairwise_filterMap.mp partitions.disjoint
        have apart := List.pairwise_iff_getElem.mp pairwise previous (previous + 2)
          (by rw [List.length_range]; exact (Nat.lt_succ_self _).trans below)
          (by rw [List.length_range]; exact nextBelow) (Nat.lt_add_of_pos_right two_pos)
        rw [List.getElem_range, List.getElem_range] at apart
        have even : previous % 2 = 0 := Nat.succ_mod_two_eq_one_iff.mp odd
        have ordered := apart _ (dashRange_eq_some_iff.2 ⟨even, rfl⟩) _
          (dashRange_eq_some_iff.2 ⟨by rw [Nat.add_mod_right, even], rfl⟩)
        rw [div_le_div_iff_of_pos_right positive, min_eq_left (before _ below).le] at ordered
        exact ordered
  rw [dashStart] at steps
  exact nonneg_of_le_add_right steps

/-! ## Whole periods -/

theorem dashAt_of_lt {index : Nat} (inside : index < array.length) :
    dashAt array index = array[index] := by
  rw [dashAt, Nat.mod_eq_of_lt inside, List.getElem?_eq_getElem inside, Option.getD_some]

theorem dashAt_nonneg (nonneg : ∀ dash ∈ array, 0 ≤ dash) (index : Nat) :
    0 ≤ dashAt array index := by
  rw [dashAt]
  cases found : array[index % array.length]? with
  | none => exact le_rfl
  | some dash => exact nonneg dash (List.mem_of_getElem? found)

/-- The pattern after some periods and a part of one. -/
theorem dashStart_periods (periods : Nat) {rest : Nat} (within : rest ≤ array.length) :
    dashStart array (array.length * periods + rest) =
      periods * array.sum + (array.take rest).sum := by
  induction periods generalizing rest with
  | zero =>
      induction rest with
      | zero => simp [dashStart]
      | succ rest ih =>
          rw [← Nat.add_assoc, dashStart, ih (Nat.le_of_succ_le within), List.sum_take_succ _ _ within]
          rw [Nat.mul_zero, Nat.zero_add, dashAt_of_lt within]
          ring
  | succ periods ih =>
      induction rest with
      | zero =>
          rw [Nat.add_zero, Nat.mul_succ, ih le_rfl, List.take_length, List.take_zero,
            List.sum_nil]
          push_cast
          ring
      | succ rest ih' =>
          rw [← Nat.add_assoc, dashStart, ih' (Nat.le_of_succ_le within),
            List.sum_take_succ _ _ within]
          have same : dashAt array (array.length * (periods + 1) + rest) = array[rest] := by
            rw [dashAt, Nat.mul_add_mod, ← dashAt, dashAt_of_lt within]
          rw [same]
          ring

theorem dashStart_eq_sum_take {index : Nat} (within : index ≤ array.length) :
    dashStart array index = (array.take index).sum := by
  have start := dashStart_periods 0 within
  rwa [Nat.mul_zero, Nat.zero_add, Nat.cast_zero, zero_mul, zero_add] at start

theorem mem_dashArray {dashes : List ℚ} {dash : ℚ} : dash ∈ dashArray dashes ↔ dash ∈ dashes := by
  rw [dashArray]
  split
  · rw [List.mem_append, or_self]
  · rfl

theorem prefix_dashArray (dashes : List ℚ) : dashes <+: dashArray dashes := by
  rw [dashArray]
  split
  · exact List.prefix_append dashes dashes
  · exact List.prefix_rfl

/-! ## The first negative value -/

/-- Before the first negative value the pattern goes forward. -/
theorem forward_takeWhile {dashes : List ℚ} (isPrefix : dashes <+: array) :
    Forward array (dashes.takeWhile fun dash => 0 ≤ dash).length ∧
      dashStart array (dashes.takeWhile fun dash => 0 ≤ dash).length =
        (dashes.takeWhile fun dash => 0 ≤ dash).sum := by
  have front : (dashes.takeWhile fun dash => 0 ≤ dash) <+: array :=
    (List.takeWhile_prefix _).trans isPrefix
  constructor
  · intro index below
    have inside := below.trans_le front.length_le
    rw [dashAt_of_lt inside, ← front.getElem below]
    have nonneg := List.mem_takeWhile_imp (List.getElem_mem below)
    exact of_decide_eq_true nonneg
  · rw [dashStart_eq_sum_take front.length_le, ← List.prefix_iff_eq_take.mp front]

/-- A pattern that goes forward has not reached a negative value. -/
theorem le_takeWhile_of_forward {dashes : List ℚ} (isPrefix : dashes <+: array)
    (negative : ¬ ∀ dash ∈ dashes, 0 ≤ dash) {count : Nat} (forward : Forward array count) :
    count ≤ (dashes.takeWhile fun dash => 0 ≤ dash).length := by
  by_contra beyond
  have goesForward := forward _ (not_le.mp beyond)
  cases back : dashes.dropWhile fun dash => 0 ≤ dash with
  | nil =>
      apply negative
      intro dash member
      exact of_decide_eq_true (List.dropWhile_eq_nil_iff.mp back dash member)
  | cons dash rest =>
      have isNegative : decide (0 ≤ dash) = false := by
        have first := List.head?_dropWhile_not (fun dash : ℚ => decide (0 ≤ dash)) dashes
        rw [back] at first
        exact first
      rcases isPrefix with ⟨more, rfl⟩
      have split : dashes ++ more =
          (dashes.takeWhile fun dash => 0 ≤ dash) ++ dash :: (rest ++ more) := by
        rw [← List.cons_append, ← List.append_assoc, ← back, List.takeWhile_append_dropWhile]
      have found : (dashes ++ more)[(dashes.takeWhile fun dash => 0 ≤ dash).length]? =
          some dash := by
        rw [split, List.getElem?_append_right le_rfl, Nat.sub_self, List.getElem?_cons_zero]
      rcases List.getElem?_eq_some_iff.mp found with ⟨inside, here⟩
      rw [dashAt_of_lt inside, here] at goesForward
      exact of_decide_eq_false isNegative goesForward

theorem dashStart_nonpos (nonpos : ∀ dash ∈ array, dash ≤ 0) (index : Nat) :
    dashStart array index ≤ 0 := by
  induction index with
  | zero => exact le_rfl
  | succ index ih =>
      rw [dashStart, dashAt]
      apply add_nonpos ih
      cases found : array[index % array.length]? with
      | none => exact le_rfl
      | some dash => exact nonpos dash (List.mem_of_getElem? found)

theorem dashable_of_forward {dashes : List ℚ} (positive : 0 < totalLength) {count : Nat}
    (forward : Forward (dashArray dashes) count)
    (reaches : totalLength ≤ dashStart (dashArray dashes) count) :
    Dashable dashes totalLength := by
  by_cases nonneg : ∀ dash ∈ dashes, 0 ≤ dash
  · apply Or.inr
    apply Or.inl
    refine ⟨nonneg, ?_⟩
    by_contra none
    rw [not_exists] at none
    apply absurd reaches (not_le.mpr _)
    apply lt_of_le_of_lt (dashStart_nonpos _ count) positive
    intro dash member
    exact not_lt.mp fun isPositive => none dash ⟨mem_dashArray.1 member, isPositive⟩
  · have below := le_takeWhile_of_forward (prefix_dashArray dashes) nonneg forward
    rcases forward_takeWhile (prefix_dashArray dashes) with ⟨forwardFront, sum⟩
    have further := dashStart_le_of_forward forwardFront below le_rfl
    rw [sum] at further
    exact Or.inr (Or.inr (reaches.trans further))

theorem exists_forward_of_dashable {dashes : List ℚ} (positive : 0 < totalLength)
    (dashable : Dashable dashes totalLength) :
    ∃ count, Forward (dashArray dashes) count ∧
      totalLength ≤ dashStart (dashArray dashes) count := by
  rcases dashable with short | ⟨nonneg, dash, member, isPositive⟩ | enough
  · exact absurd positive (not_lt.mpr short)
  · have nonnegArray : ∀ dash ∈ dashArray dashes, 0 ≤ dash :=
      fun dash member => nonneg dash (mem_dashArray.1 member)
    have period : 0 < (dashArray dashes).sum :=
      isPositive.trans_le (List.single_le_sum nonnegArray dash (mem_dashArray.2 member))
    rcases exists_nat_ge (totalLength / (dashArray dashes).sum) with ⟨periods, enough⟩
    refine ⟨(dashArray dashes).length * periods, ?_, ?_⟩
    · exact fun index _ => dashAt_nonneg nonnegArray index
    · have start : dashStart (dashArray dashes) ((dashArray dashes).length * periods) =
          periods * (dashArray dashes).sum + 0 := dashStart_periods periods (Nat.zero_le _)
      rw [start, add_zero]
      exact (div_le_iff₀ period).mp enough
  · rcases forward_takeWhile (prefix_dashArray dashes) with ⟨forward, sum⟩
    exact ⟨_, forward, sum ▸ enough⟩

end Gpui
