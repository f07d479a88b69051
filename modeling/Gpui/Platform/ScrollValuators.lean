import Gpui.Geometry
import Gpui.Library.BitRank

/-!
# Scroll valuators of XInput devices

A device reports how far it has been scrolled as the absolute value of a valuator.  Each axis
keeps the last value that it has seen and turns the next one into a delta, so the deltas
between two resets add up to the way between the first value and the last.
-/

namespace Gpui

open Gpui.Library

/-! ## Masks -/

def bitIsSet (bits : UInt32) (bitIndex : UInt16) : Bool :=
  bits &&& (1 <<< bitIndex.toUInt32) != 0

/-- Sets every bit from the index on to 0. -/
def keepBitsUpto (bits : UInt32) (bitIndex : UInt16) : UInt32 :=
  if bitIndex = 0 then 0
  else if 32 ≤ bitIndex then 0xFFFFFFFF
  else bits &&& ((1 <<< bitIndex.toUInt32) - 1)

def bitIsSetInVec (bitVec : List UInt32) (bitIndex : UInt16) : Bool :=
  (bitVec[bitIndex.toNat / 32]?).any fun bits => bitIsSet bits (bitIndex % 32)

def popcountUptoBitIndex (bitVec : List UInt32) (bitIndex : UInt16) : Nat :=
  let arrayIndex := bitIndex.toNat / 32
  let popcount := (bitVec[arrayIndex]?).elim 0 fun bits =>
    countOnes (keepBitsUpto bits (bitIndex % 32))
  if arrayIndex = 0 then
    popcount
  else
    popcount + ((bitVec.take arrayIndex).map countOnes).sum

def getValuatorAxisIndex (valuatorMask : List UInt32) (valuatorNumber : UInt16) : Option Nat :=
  if bitIsSetInVec valuatorMask valuatorNumber then
    some (popcountUptoBitIndex valuatorMask valuatorNumber)
  else
    none

/-! ## Motion events -/

/-- A fixed-point number. -/
structure Fp3232 where
  integral : Int32
  frac : UInt32

/-- The divisor is the largest word, which is rounded to `2 ^ 32`. -/
def fp3232ToF32 (value : Fp3232) : ℚ :=
  value.integral.toInt + value.frac.toNat / ((4294967296 : ℕ) : ℚ)

structure MotionEvent where
  valuatorMask : List UInt32
  axisvalues : List Fp3232

/-- What the device says of one axis, and the last value that it reported. -/
structure ScrollAxisState where
  valuatorNumber : Option UInt16
  multiplier : ℚ
  scrollValue : Option ℚ

structure PointerDeviceState where
  horizontal : ScrollAxisState
  vertical : ScrollAxisState

def resetPointerDeviceScrollPositions (pointer : PointerDeviceState) : PointerDeviceState where
  horizontal := { pointer.horizontal with scrollValue := none }
  vertical := { pointer.vertical with scrollValue := none }

/-- Where the mask promises a value that is not there, the event is logged and ignored. -/
def getAxisScrollDeltaAndUpdateState (event : MotionEvent) (axis : ScrollAxisState) :
    Option ℚ × ScrollAxisState :=
  match axis.valuatorNumber.bind (getValuatorAxisIndex event.valuatorMask) with
  | none => (none, axis)
  | some axisIndex =>
      match event.axisvalues[axisIndex]? with
      | some axisValue =>
          let newScroll := fp3232ToF32 axisValue
          let deltaScroll := axis.scrollValue.map fun oldScroll =>
            (oldScroll - newScroll) * axis.multiplier
          (deltaScroll, { axis with scrollValue := some newScroll })
      | none => (none, axis)

/-- A delta where one axis has one. -/
def pointOf (deltaX deltaY : Option ℚ) : Option (Point ℚ) :=
  if deltaX.isSome || deltaY.isSome then
    some { x := deltaX.getD 0, y := deltaY.getD 0 }
  else
    none

def getScrollDeltaAndUpdateState (pointer : PointerDeviceState) (event : MotionEvent) :
    Option (Point ℚ) × PointerDeviceState :=
  let deltaX := getAxisScrollDeltaAndUpdateState event pointer.horizontal
  let deltaY := getAxisScrollDeltaAndUpdateState event pointer.vertical
  (pointOf deltaX.1 deltaY.1, { horizontal := deltaX.2, vertical := deltaY.2 })

/-! ## The value of a valuator -/

/-- What an event says about a valuator: its values are those of the set bits, in order. -/
def MotionEvent.reported (event : MotionEvent) (valuator : Nat) : Option ℚ :=
  ((dealt (maskBit event.valuatorMask) (32 * event.valuatorMask.length)
    event.axisvalues).lookup valuator).map fp3232ToF32

theorem toNat_one_shiftLeft {bitIndex : UInt16} (small : bitIndex.toNat < 32) :
    ((1 : UInt32) <<< bitIndex.toUInt32).toNat = 2 ^ bitIndex.toNat := by
  have bound : 2 ^ bitIndex.toNat < 2 ^ 32 := Nat.pow_lt_pow_right (by decide) small
  rw [UInt32.toNat_shiftLeft, UInt16.toNat_toUInt32, Nat.mod_eq_of_lt small, Nat.shiftLeft_eq,
    UInt32.toNat_one, Nat.one_mul, Nat.mod_eq_of_lt bound]

theorem bitIsSet_eq {bitIndex : UInt16} (bits : UInt32) (small : bitIndex.toNat < 32) :
    bitIsSet bits bitIndex = bits.toNat.testBit bitIndex.toNat := by
  have zero : (bits &&& (1 <<< bitIndex.toUInt32) = 0) ↔
      bits.toNat.testBit bitIndex.toNat = false := by
    rw [← UInt32.toNat_inj, UInt32.toNat_and, toNat_one_shiftLeft small, Nat.and_two_pow]
    cases bits.toNat.testBit bitIndex.toNat <;> simp
  rw [bitIsSet, Bool.eq_iff_iff, bne_iff_ne, Ne, zero, Bool.not_eq_false]

/-- Below an index there are as many set bits as are kept. -/
theorem countOnes_keepBitsUpto {bitIndex : UInt16} (bits : UInt32)
    (small : bitIndex.toNat < 32) :
    countOnes (keepBitsUpto bits bitIndex) = rank bits.toNat.testBit bitIndex.toNat := by
  have kept : (keepBitsUpto bits bitIndex).toNat = bits.toNat % 2 ^ bitIndex.toNat := by
    rw [keepBitsUpto]
    by_cases zero : bitIndex = 0
    · rw [if_pos zero, zero, UInt16.toNat_zero, Nat.pow_zero, Nat.mod_one]
      rfl
    · have notLarge : ¬ 32 ≤ bitIndex := by
        rw [UInt16.le_iff_toNat_le]
        exact not_le.mpr small
      have one_le : (1 : UInt32) ≤ 1 <<< bitIndex.toUInt32 := by
        rw [UInt32.le_iff_toNat_le, toNat_one_shiftLeft small]
        exact Nat.one_le_two_pow
      rw [if_neg zero, if_neg notLarge, UInt32.toNat_and, UInt32.toNat_sub_of_le _ _ one_le,
        toNat_one_shiftLeft small]
      exact Nat.and_two_pow_sub_one_eq_mod _ _
  have split : 32 = bitIndex.toNat + (32 - bitIndex.toNat) := by omega
  rw [countOnes, kept, split, rank_add]
  have below : rank (bits.toNat % 2 ^ bitIndex.toNat).testBit bitIndex.toNat =
      rank bits.toNat.testBit bitIndex.toNat := by
    apply List.countP_congr
    intro position member
    rw [Nat.testBit_mod_two_pow, decide_eq_true (List.mem_range.mp member), Bool.true_and]
  have above : rank (fun offset => (bits.toNat % 2 ^ bitIndex.toNat).testBit
      (bitIndex.toNat + offset)) (32 - bitIndex.toNat) = 0 := by
    apply List.countP_eq_zero.mpr
    intro offset _
    rw [Nat.testBit_mod_two_pow, decide_eq_false (by omega), Bool.false_and]
    exact Bool.false_ne_true
  rw [below, above, Nat.add_zero]

theorem toNat_mod_word (bitIndex : UInt16) : (bitIndex % 32).toNat = bitIndex.toNat % 32 :=
  UInt16.toNat_mod _ _

theorem bitIsSetInVec_eq (bitVec : List UInt32) (bitIndex : UInt16) :
    bitIsSetInVec bitVec bitIndex = maskBit bitVec bitIndex.toNat := by
  have small : (bitIndex % 32).toNat < 32 := by
    rw [toNat_mod_word]
    exact Nat.mod_lt _ (by decide)
  rw [bitIsSetInVec, maskBit]
  congr 1
  funext bits
  rw [bitIsSet_eq bits small, toNat_mod_word]

/-- The index of a value is the rank of its bit, across the words. -/
theorem popcountUptoBitIndex_eq (bitVec : List UInt32) (bitIndex : UInt16) :
    popcountUptoBitIndex bitVec bitIndex = rank (maskBit bitVec) bitIndex.toNat := by
  have small : bitIndex.toNat % 32 < 32 := Nat.mod_lt _ (by decide)
  have inWord : ((bitVec[bitIndex.toNat / 32]?).elim 0 fun bits =>
      countOnes (keepBitsUpto bits (bitIndex % 32))) =
        (bitVec[bitIndex.toNat / 32]?).elim 0 fun word =>
          rank word.toNat.testBit (bitIndex.toNat % 32) := by
    congr 1
    funext bits
    rw [countOnes_keepBitsUpto bits (toNat_mod_word bitIndex ▸ small), toNat_mod_word]
  have whole : rank (maskBit bitVec) bitIndex.toNat =
      ((bitVec.take (bitIndex.toNat / 32)).map countOnes).sum +
        (bitVec[bitIndex.toNat / 32]?).elim 0 fun word =>
          rank word.toNat.testBit (bitIndex.toNat % 32) := by
    conv_lhs => rw [← Nat.div_add_mod bitIndex.toNat 32]
    rw [rank_add, rank_maskBit_words, rank_maskBit_word _ _ small.le]
  rw [popcountUptoBitIndex, whole, inWord]
  by_cases first : bitIndex.toNat / 32 = 0
  · rw [if_pos first, first, List.take_zero, List.map_nil, List.sum_nil, Nat.zero_add]
  · rw [if_neg first, Nat.add_comm]

theorem maskBit_lt {mask : List UInt32} {position : Nat} (isSet : maskBit mask position = true) :
    position < 32 * mask.length := by
  rw [maskBit, Option.any_eq_true] at isSet
  rcases isSet with ⟨word, found, _⟩
  have inside := (List.getElem?_eq_some_iff.mp found).1
  omega

/-- The look-up by population count finds the value of the valuator. -/
theorem getValuatorAxisIndex_spec (event : MotionEvent) (valuator : UInt16) :
    ((getValuatorAxisIndex event.valuatorMask valuator).bind (event.axisvalues[·]?)).map
      fp3232ToF32 = event.reported valuator.toNat := by
  rw [getValuatorAxisIndex, MotionEvent.reported, bitIsSetInVec_eq]
  by_cases isSet : maskBit event.valuatorMask valuator.toNat = true
  · rw [if_pos isSet, lookup_dealt_of_set (maskBit_lt isSet) isSet, popcountUptoBitIndex_eq]
    rfl
  · rw [if_neg isSet, lookup_dealt_of_notSet (Bool.eq_false_of_not_eq_true isSet)]
    rfl

example : getValuatorAxisIndex [0b1010, 0b101] 34 = some 3 := by decide

/-! ## The deltas of an axis -/

/-- What an event says about an axis; nothing where the device has no such axis. -/
def ScrollAxisState.reported (axis : ScrollAxisState) (event : MotionEvent) : Option ℚ :=
  axis.valuatorNumber.bind fun valuator => event.reported valuator.toNat

/-- One event: the value is kept, and its difference to the one before is the delta. -/
theorem getAxisScrollDelta_spec (event : MotionEvent) (axis : ScrollAxisState) :
    getAxisScrollDeltaAndUpdateState event axis =
      match axis.reported event with
      | none => (none, axis)
      | some value => (axis.scrollValue.map fun old => (old - value) * axis.multiplier,
          { axis with scrollValue := some value }) := by
  rw [getAxisScrollDeltaAndUpdateState, ScrollAxisState.reported]
  cases axis.valuatorNumber with
  | none => rfl
  | some valuator =>
      rw [Option.bind_some, Option.bind_some, ← getValuatorAxisIndex_spec]
      cases getValuatorAxisIndex event.valuatorMask valuator with
      | none => rfl
      | some axisIndex =>
          rw [Option.bind_some]
          cases found : event.axisvalues[axisIndex]? with
          | none =>
              simp only [found]
              rfl
          | some axisValue =>
              simp only [found]
              rfl

/-- The deltas of an axis over motion events, and the axis afterwards. -/
def axisDeltas (axis : ScrollAxisState) : List MotionEvent → List (Option ℚ) × ScrollAxisState
  | [] => ([], axis)
  | event :: events =>
      let delta := getAxisScrollDeltaAndUpdateState event axis
      let rest := axisDeltas delta.2 events
      (delta.1 :: rest.1, rest.2)

/-- They are the differences between one reported value and the next. -/
theorem axisDeltas_eq (axis : ScrollAxisState) (events : List MotionEvent) :
    (axisDeltas axis events).1 =
      differences axis.multiplier axis.scrollValue (events.map axis.reported) := by
  induction events generalizing axis with
  | nil => rfl
  | cons event events ih =>
      rw [axisDeltas, List.map_cons, ih, getAxisScrollDelta_spec]
      cases axis.reported event with
      | none => rfl
      | some value => rfl

/-! ## Devices in use -/

/-- What happens to a device: it moves, or its scroll positions are reset. -/
inductive PointerEvent where
  | motion (event : MotionEvent)
  | reset

/-- The deltas that a device returns, one for each event, and the device afterwards. -/
def scrollDeltas (pointer : PointerDeviceState) :
    List PointerEvent → List (Option (Point ℚ)) × PointerDeviceState
  | [] => ([], pointer)
  | .motion event :: events =>
      let delta := getScrollDeltaAndUpdateState pointer event
      let rest := scrollDeltas delta.2 events
      (delta.1 :: rest.1, rest.2)
  | .reset :: events =>
      let rest := scrollDeltas (resetPointerDeviceScrollPositions pointer) events
      (none :: rest.1, rest.2)

theorem scrollDeltas_append (pointer : PointerDeviceState) (events more : List PointerEvent) :
    (scrollDeltas pointer (events ++ more)).1 =
      (scrollDeltas pointer events).1 ++
        (scrollDeltas (scrollDeltas pointer events).2 more).1 := by
  induction events generalizing pointer with
  | nil => rfl
  | cons event events ih =>
      cases event with
      | motion event => exact congrArg (_ :: ·) (ih _)
      | reset => exact congrArg (_ :: ·) (ih _)

theorem length_scrollDeltas (pointer : PointerDeviceState) (events : List PointerEvent) :
    (scrollDeltas pointer events).1.length = events.length := by
  induction events generalizing pointer with
  | nil => rfl
  | cons event events ih =>
      cases event with
      | motion event => exact congrArg (· + 1) (ih _)
      | reset => exact congrArg (· + 1) (ih _)

/-- Between resets a device returns the deltas of its two axes, which do not meet. -/
theorem scrollDeltas_motions (pointer : PointerDeviceState) (motions : List MotionEvent) :
    (scrollDeltas pointer (motions.map .motion)).1 =
      List.zipWith pointOf (axisDeltas pointer.horizontal motions).1
        (axisDeltas pointer.vertical motions).1 := by
  induction motions generalizing pointer with
  | nil => rfl
  | cons event motions ih => exact congrArg (_ :: ·) (ih _)

/-- The numbers and the multipliers of the axes never change. -/
structure SameAxis (axis other : ScrollAxisState) : Prop where
  valuatorNumber : axis.valuatorNumber = other.valuatorNumber
  multiplier : axis.multiplier = other.multiplier

theorem SameAxis.update (event : MotionEvent) (axis : ScrollAxisState) :
    SameAxis (getAxisScrollDeltaAndUpdateState event axis).2 axis := by
  rw [getAxisScrollDelta_spec]
  cases axis.reported event with
  | none => exact ⟨rfl, rfl⟩
  | some value => exact ⟨rfl, rfl⟩

theorem SameAxis.trans {axis middle other : ScrollAxisState} (first : SameAxis axis middle)
    (second : SameAxis middle other) : SameAxis axis other where
  valuatorNumber := first.valuatorNumber.trans second.valuatorNumber
  multiplier := first.multiplier.trans second.multiplier

/-- The axes of a device. -/
inductive ScrollAxis where
  | horizontal
  | vertical

def PointerDeviceState.axis (pointer : PointerDeviceState) : ScrollAxis → ScrollAxisState
  | .horizontal => pointer.horizontal
  | .vertical => pointer.vertical

theorem sameAxis_scrollDeltas (pointer : PointerDeviceState) (events : List PointerEvent)
    (axis : ScrollAxis) :
    SameAxis ((scrollDeltas pointer events).2.axis axis) (pointer.axis axis) := by
  induction events generalizing pointer with
  | nil => exact ⟨rfl, rfl⟩
  | cons event events ih =>
      cases event with
      | motion event =>
          apply (ih (getScrollDeltaAndUpdateState pointer event).2).trans
          cases axis with
          | horizontal => exact SameAxis.update event pointer.horizontal
          | vertical => exact SameAxis.update event pointer.vertical
      | reset =>
          apply (ih (resetPointerDeviceScrollPositions pointer)).trans
          cases axis with
          | horizontal => exact ⟨rfl, rfl⟩
          | vertical => exact ⟨rfl, rfl⟩

namespace ScrollAxis

/-- The other axis. -/
def other : ScrollAxis → ScrollAxis
  | .horizontal => .vertical
  | .vertical => .horizontal

/-- What a delta moves along an axis. -/
def along (self : ScrollAxis) (delta : Option (Point ℚ)) : Option ℚ :=
  delta.map fun point =>
    match self with
    | .horizontal => point.x
    | .vertical => point.y

/-- The delta of an axis together with that of the other one. -/
def join (self : ScrollAxis) (own others : Option ℚ) : Option (Point ℚ) :=
  match self with
  | .horizontal => pointOf own others
  | .vertical => pointOf others own

theorem getD_along_join (self : ScrollAxis) (own others : Option ℚ) :
    (self.along (self.join own others)).getD 0 = own.getD 0 := by
  cases self <;> cases own <;> cases others <;> rfl

end ScrollAxis

/-- The deltas that are returned for the motions between two resets. -/
def deltasBetween (pointer : PointerDeviceState) (before : List PointerEvent)
    (motions : List MotionEvent) (after : List PointerEvent) : List (Option (Point ℚ)) :=
  ((scrollDeltas pointer (before ++ .reset :: (motions.map .motion ++ .reset :: after))).1.drop
    (before.length + 1)).take motions.length

/-- The differences of the values that are reported for an axis. -/
def reportedDifferences (pointer : PointerDeviceState) (motions : List MotionEvent)
    (axis : ScrollAxis) : List (Option ℚ) :=
  differences (pointer.axis axis).multiplier none (motions.map (pointer.axis axis).reported)

/-- After a reset an axis returns the differences of the values reported for it. -/
theorem axisDeltas_reset {pointer first : PointerDeviceState} (axis : ScrollAxis)
    (same : SameAxis (pointer.axis axis) (first.axis axis)) (motions : List MotionEvent) :
    (axisDeltas ((resetPointerDeviceScrollPositions pointer).axis axis) motions).1 =
      reportedDifferences first motions axis := by
  have reports : ((resetPointerDeviceScrollPositions pointer).axis axis).reported =
      (first.axis axis).reported := by
    funext event
    cases axis with
    | horizontal =>
        exact congrArg (·.bind fun valuator => event.reported valuator.toNat) same.valuatorNumber
    | vertical =>
        exact congrArg (·.bind fun valuator => event.reported valuator.toNat) same.valuatorNumber
  have noValue : ((resetPointerDeviceScrollPositions pointer).axis axis).scrollValue = none := by
    cases axis <;> rfl
  have scale : ((resetPointerDeviceScrollPositions pointer).axis axis).multiplier =
      (first.axis axis).multiplier := by
    cases axis with
    | horizontal => exact same.multiplier
    | vertical => exact same.multiplier
  rw [axisDeltas_eq, reports, noValue, scale, reportedDifferences]

theorem deltasBetween_eq (pointer : PointerDeviceState) (before : List PointerEvent)
    (motions : List MotionEvent) (after : List PointerEvent) (axis : ScrollAxis) :
    deltasBetween pointer before motions after =
      List.zipWith axis.join (reportedDifferences pointer motions axis)
        (reportedDifferences pointer motions axis.other) := by
  have inBetween : deltasBetween pointer before motions after =
      (scrollDeltas (resetPointerDeviceScrollPositions (scrollDeltas pointer before).2)
        (motions.map .motion)).1 := by
    have length := length_scrollDeltas pointer before
    have inside := length_scrollDeltas
      (resetPointerDeviceScrollPositions (scrollDeltas pointer before).2) (motions.map .motion)
    rw [List.length_map] at inside
    rw [deltasBetween, scrollDeltas_append, scrollDeltas, scrollDeltas_append, ← length,
      ← List.drop_drop, List.drop_left, List.drop_one, List.tail_cons, ← inside, List.take_left]
  have same := sameAxis_scrollDeltas pointer before
  rw [inBetween, scrollDeltas_motions]
  cases axis with
  | horizontal =>
      exact congrArg₂ (List.zipWith pointOf) (axisDeltas_reset .horizontal (same _) motions)
        (axisDeltas_reset .vertical (same _) motions)
  | vertical =>
      rw [List.zipWith_comm]
      exact congrArg₂ (List.zipWith (flip pointOf))
        (axisDeltas_reset .vertical (same _) motions)
        (axisDeltas_reset .horizontal (same _) motions)

/-- Along an axis a device returns the differences of the values of its valuator. -/
theorem along_deltasBetween (pointer : PointerDeviceState) (before : List PointerEvent)
    (motions : List MotionEvent) (after : List PointerEvent) (axis : ScrollAxis) :
    (deltasBetween pointer before motions after).map (fun delta => (axis.along delta).getD 0) =
      (reportedDifferences pointer motions axis).map (·.getD 0) := by
  have length : (reportedDifferences pointer motions axis).length =
      (reportedDifferences pointer motions axis.other).length := by
    rw [reportedDifferences, reportedDifferences, length_differences, length_differences,
      List.length_map, List.length_map]
  rw [deltasBetween_eq pointer before motions after axis, List.map_zipWith]
  apply List.ext_getElem
  · rw [List.length_zipWith, List.length_map, ← length, Nat.min_self]
  · intro ix _ _
    rw [List.getElem_zipWith, List.getElem_map, axis.getD_along_join]

/-- Between two resets the deltas along an axis add up to the way from the first to the last
value of its valuator, no other valuator has a part in them, and the first value after the
reset gives the axis no delta. -/
theorem sum_deltasBetween (pointer : PointerDeviceState) (before : List PointerEvent)
    (motions : List MotionEvent) (after : List PointerEvent) (axis : ScrollAxis) :
    ((deltasBetween pointer before motions after).map
        fun delta => (axis.along delta).getD 0).sum =
      (pointer.axis axis).multiplier *
        travelled (motions.filterMap (pointer.axis axis).reported) ∧
    (∀ others : List MotionEvent,
      others.map (pointer.axis axis).reported = motions.map (pointer.axis axis).reported →
        (deltasBetween pointer before others after).map
            (fun delta => (axis.along delta).getD 0) =
          (deltasBetween pointer before motions after).map
            fun delta => (axis.along delta).getD 0) ∧
    ∀ silent first rest, motions = silent ++ first :: rest →
      (∀ event ∈ silent, (pointer.axis axis).reported event = none) →
        ∃ others, (deltasBetween pointer before motions after)[silent.length]? =
          some (axis.join none others) := by
  constructor
  · rw [along_deltasBetween, reportedDifferences]
    apply (total_differences_none _ _).trans
    rw [List.reduceOption, List.filterMap_map]
    rfl
  · constructor
    · intro others same
      rw [along_deltasBetween, along_deltasBetween, reportedDifferences, reportedDifferences,
        same]
    · intro silent first rest split noValue
      have length : silent.length <
          (reportedDifferences pointer motions axis.other).length := by
        rw [reportedDifferences, length_differences, List.length_map, split,
          List.length_append]
        exact Nat.lt_add_of_pos_right (Nat.succ_pos _)
      have own : (reportedDifferences pointer motions axis)[silent.length]? = some none := by
        have silence : ∀ old ∈ silent.map (pointer.axis axis).reported, old = none := by
          intro old member
          rcases List.mem_map.mp member with ⟨event, isSilent, equal⟩
          exact equal.symm.trans (noValue event isSilent)
        rw [reportedDifferences, split, List.map_append, List.map_cons,
          ← @List.length_map _ _ silent (pointer.axis axis).reported]
        exact differences_first _ silence
      apply Exists.intro ((reportedDifferences pointer motions axis.other)[silent.length])
      rw [deltasBetween_eq pointer before motions after axis, List.getElem?_zipWith, own,
        List.getElem?_eq_getElem length]

end Gpui
