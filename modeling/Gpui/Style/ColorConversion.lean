import Gpui.Style.Color

/-!
# Colours through hue, saturation and lightness

A colour is the largest component, the smallest one and one in between, arranged by the
sextant of its hue.  The conversion to hue, saturation and lightness and the one back agree
on the sextant, where components are equal too, so a colour survives the detour.
-/

namespace Gpui

variable {K : Type} [Field K] [LinearOrder K] [IsStrictOrderedRing K]

omit [IsStrictOrderedRing K] in
theorem clampUnit_eq_self {value : K} (nonneg : 0 ≤ value) (le_one : value ≤ 1) :
    clampUnit value = value := by
  rw [clampUnit, if_neg (not_lt.mpr nonneg), if_neg (not_lt.mpr le_one)]

theorem clampUnit_mem (value : K) : 0 ≤ clampUnit value ∧ clampUnit value ≤ 1 := by
  rw [clampUnit]
  by_cases negative : value < 0
  · rw [if_pos negative]
    exact ⟨le_rfl, zero_le_one⟩
  · rw [if_neg negative]
    by_cases large : 1 < value
    · rw [if_pos large]
      exact ⟨zero_le_one, le_rfl⟩
    · rw [if_neg large]
      exact ⟨not_lt.mp negative, not_lt.mp large⟩

/-- Red, green and blue are between 0 and 1. -/
structure Rgba.InUnit (color : Rgba K) : Prop where
  r : 0 ≤ color.r ∧ color.r ≤ 1
  g : 0 ≤ color.g ∧ color.g ≤ 1
  b : 0 ≤ color.b ∧ color.b ≤ 1

omit [IsStrictOrderedRing K] in
theorem Rgba.InUnit.bounds {color : Rgba K} (inUnit : color.InUnit) :
    0 ≤ min color.r (min color.g color.b) ∧
      min color.r (min color.g color.b) ≤ max color.r (max color.g color.b) ∧
        max color.r (max color.g color.b) ≤ 1 := by
  constructor
  · exact le_min inUnit.r.1 (le_min inUnit.g.1 inUnit.b.1)
  · constructor
    · exact (min_le_left _ _).trans (le_max_left _ _)
    · exact max_le inUnit.r.2 (max_le inUnit.g.2 inUnit.b.2)

variable [FloorRing K]

/-- What is left behind a multiple of the divisor. -/
theorem floatRem_add {divisor rest : K} {times : Nat} (nonneg : 0 ≤ rest) (lt : rest < divisor) :
    floatRem (times * divisor + rest) divisor = rest := by
  have positive : 0 < divisor := nonneg.trans_lt lt
  have quotient : (times * divisor + rest) / divisor = times + rest / divisor := by
    rw [add_div, mul_div_cancel_right₀ _ positive.ne']
  have floor : ⌊(times : K) + rest / divisor⌋ = times := by
    rw [Int.floor_natCast_add, Int.floor_eq_zero_iff.mpr, add_zero]
    exact ⟨div_nonneg nonneg positive.le, (div_lt_one positive).mpr lt⟩
  have above : 0 ≤ (times : K) + rest / divisor :=
    add_nonneg times.cast_nonneg (div_nonneg nonneg positive.le)
  rw [floatRem, quotient, if_pos above, floor, Int.cast_natCast]
  ring

namespace Hsla

/-- The largest, the middle and the smallest component as a sextant arranges them. -/
def arrange (sextant : Int) (high mid low alpha : K) : Rgba K :=
  match sextant with
  | 0 | 6 => ⟨high, mid, low, alpha⟩
  | 1 => ⟨mid, high, low, alpha⟩
  | 2 => ⟨low, high, mid, alpha⟩
  | 3 => ⟨low, mid, high, alpha⟩
  | 4 => ⟨mid, low, high, alpha⟩
  | _ => ⟨high, low, mid, alpha⟩

omit [IsStrictOrderedRing K] in
/-- A colour whose lightness, chroma and hue are those of three components is made of them. -/
theorem toRgba_eq_arrange {color : Hsla K} {high mid low : K} (nonneg : 0 ≤ low)
    (low_le : low ≤ mid) (le_high : mid ≤ high) (le_one : high ≤ 1)
    (light : color.l = (high + low) / 2)
    (chroma : (1 - |2 * color.l - 1|) * color.s = high - low)
    (wave : (high - low) * (1 - |floatRem (color.h * 6) 2 - 1|) = mid - low) :
    color.toRgba = arrange ⌊color.h * 6⌋ high mid low color.a := by
  have base : color.l - (high - low) / 2 = low := by
    rw [light]
    ring
  rw [toRgba]
  simp only [Nat.cast_ofNat, chroma, wave, base, sub_add_cancel]
  have clampLow := clampUnit_eq_self nonneg (low_le.trans (le_high.trans le_one))
  have clampMid := clampUnit_eq_self (nonneg.trans low_le) (le_high.trans le_one)
  have clampHigh := clampUnit_eq_self (nonneg.trans (low_le.trans le_high)) le_one
  generalize ⌊color.h * 6⌋ = sextant
  unfold arrange
  split <;> simp only [clampLow, clampMid, clampHigh]

/-- Lightness and saturation of components give their chroma back. -/
theorem chroma_ofRgba {color : Rgba K} {high low : K}
    (isHigh : max color.r (max color.g color.b) = high)
    (isLow : min color.r (min color.g color.b) = low) (nonneg : 0 ≤ low) (le : low ≤ high)
    (le_one : high ≤ 1) :
    (ofRgba color).l = (high + low) / 2 ∧
      (0 ≤ (ofRgba color).s ∧ (ofRgba color).s ≤ 1) ∧
        (1 - |2 * (ofRgba color).l - 1|) * (ofRgba color).s = high - low := by
  have light : (ofRgba color).l = (high + low) / 2 := by
    simp only [ofRgba, isHigh, isLow, Nat.cast_ofNat]
  have saturation : (ofRgba color).s =
      if (high + low) / 2 = 0 ∨ (high + low) / 2 = 1 then 0
      else if (high + low) / 2 < 1 / 2 then (high - low) / (high + low)
      else (high - low) / (2 - (high + low)) := by
    simp only [ofRgba, isHigh, isLow, Nat.cast_ofNat, mul_div_cancel₀ _ (two_ne_zero' K)]
  constructor
  · exact light
  · rw [light, saturation]
    by_cases extreme : (high + low) / 2 = 0 ∨ (high + low) / 2 = 1
    · rw [if_pos extreme]
      constructor
      · exact ⟨le_rfl, zero_le_one⟩
      · rw [mul_zero]
        rcases extreme with zero | one
        · linarith
        · linarith
    · rw [if_neg extreme]
      have notZero : (high + low) / 2 ≠ 0 := fun zero => extreme (.inl zero)
      have notOne : (high + low) / 2 ≠ 1 := fun one => extreme (.inr one)
      have sum_pos : 0 < high + low := by
        apply lt_of_le_of_ne (by linarith)
        intro zero
        exact notZero (by rw [← zero, zero_div])
      have sum_lt : high + low < 2 := by
        apply lt_of_le_of_ne (by linarith)
        intro two
        exact notOne (by rw [two, div_self (two_ne_zero' K)])
      by_cases dark : (high + low) / 2 < 1 / 2
      · rw [if_pos dark]
        constructor
        · exact ⟨div_nonneg (by linarith) sum_pos.le, (div_le_one sum_pos).mpr (by linarith)⟩
        · rw [abs_of_neg (by linarith)]
          field_simp
          ring
      · rw [if_neg dark]
        have rest_pos : 0 < 2 - (high + low) := by linarith
        constructor
        · exact ⟨div_nonneg (by linarith) rest_pos.le, (div_le_one rest_pos).mpr (by linarith)⟩
        · rw [abs_of_nonneg (by linarith)]
          field_simp
          ring

/-- Above zero a remainder by six is what it is, below zero it is six more. -/
theorem remEuclid_six {value : K} (above : -6 < value) (below : value < 6) :
    remEuclid value 6 = if value < 0 then value + 6 else value := by
  have rem : floatRem value 6 = value := by
    rw [floatRem]
    by_cases nonneg : 0 ≤ value / 6
    · have floor : ⌊value / 6⌋ = 0 := Int.floor_eq_zero_iff.mpr ⟨nonneg, by linarith⟩
      rw [if_pos nonneg, floor, Int.cast_zero, mul_zero, sub_zero]
    · have ceil : ⌈value / 6⌉ = 0 :=
        Int.ceil_eq_zero_iff.mpr ⟨by linarith, (not_le.mp nonneg).le⟩
      rw [if_neg nonneg, ceil, Int.cast_zero, mul_zero, sub_zero]
  simp only [remEuclid, rem, abs_of_pos (by norm_num : (0 : K) < 6)]

/-- The hue of three components.  On an even sextant it rises with the middle component, on
an odd one it falls; an end that two sextants share is on the even one for the smallest
component, on the odd one for the largest. -/
inductive Hue (color : Rgba K) (high low hue : K) : Prop where
  | gray (same : high = low) (zero : hue = 0)
      (arranged : color = arrange 0 high low low color.a)
  | rising (mid : K) (pair : Nat) (le : low ≤ mid) (lt : mid < high) (inCircle : pair ≤ 2)
      (at_hue : hue * 6 = pair * 2 + (mid - low) / (high - low))
      (arranged : color = arrange (2 * pair) high mid low color.a)
  | falling (mid : K) (pair : Nat) (lt : low < mid) (le : mid ≤ high) (inCircle : pair ≤ 2)
      (at_hue : hue * 6 = pair * 2 + (2 - (mid - low) / (high - low)))
      (arranged : color = arrange (2 * pair + 1) high mid low color.a)

omit [IsStrictOrderedRing K] in
theorem h_ofRgba (color : Rgba K) {high low : K}
    (isHigh : max color.r (max color.g color.b) = high)
    (isLow : min color.r (min color.g color.b) = low) :
    (ofRgba color).h =
      if high - low = 0 then 0
      else if high = color.r then remEuclid ((color.g - color.b) / (high - low)) 6 / 6
      else if high = color.g then ((color.b - color.r) / (high - low) + 2) / 6
      else ((color.r - color.g) / (high - low) + 4) / 6 := by
  simp only [ofRgba, isHigh, isLow, Nat.cast_ofNat]

variable {r g b a low : K}

/-- Red is the largest component: the hue is around zero. -/
theorem hue_red (isLow : min r (min g b) = low) (g_le : g ≤ r) (b_le : b ≤ r)
    (pos : 0 < r - low) :
    Hue ⟨r, g, b, a⟩ r low (remEuclid ((g - b) / (r - low)) 6 / 6) := by
  have le_g : low ≤ g := isLow ▸ (min_le_right _ _).trans (min_le_left _ _)
  have le_b : low ≤ b := isLow ▸ (min_le_right _ _).trans (min_le_right _ _)
  have above : -6 < (g - b) / (r - low) := by
    rw [lt_div_iff₀ pos]
    linarith
  have below : (g - b) / (r - low) < 6 := by
    rw [div_lt_iff₀ pos]
    linarith
  rw [remEuclid_six above below]
  rcases lt_or_ge g b with less | ge
  · have isG : low = g := by
      rw [← isLow, min_eq_left less.le, min_eq_right g_le]
    rw [if_pos (div_neg_of_neg_of_pos (sub_neg.mpr less) pos)]
    apply Hue.falling b 2 (isG.trans_lt less) b_le le_rfl
    · rw [isG]
      push_cast
      ring
    · rw [isG]
      rfl
  · have isB : low = b := by
      rw [← isLow, min_eq_right ge, min_eq_right b_le]
    rw [if_neg (not_lt.mpr (div_nonneg (sub_nonneg.mpr ge) pos.le))]
    rcases g_le.lt_or_eq with less | equal
    · apply Hue.rising g 0 le_g less (Nat.zero_le _)
      · rw [isB]
        push_cast
        ring
      · rw [isB]
        rfl
    · apply Hue.falling r 0 (sub_pos.mp pos) le_rfl (Nat.zero_le _)
      · rw [equal, ← isB, div_self pos.ne']
        push_cast
        ring
      · rw [equal, isB]
        rfl

/-- Green is larger than red: the hue is around one third. -/
theorem hue_green (isLow : min r (min g b) = low) (r_lt : r < g) (b_le : b ≤ g)
    (pos : 0 < g - low) : Hue ⟨r, g, b, a⟩ g low (((b - r) / (g - low) + 2) / 6) := by
  rcases lt_or_ge b r with less | ge
  · have isB : low = b := by
      rw [← isLow, min_eq_right b_le, min_eq_right less.le]
    apply Hue.falling r 0 (isB.trans_lt less) r_lt.le (Nat.zero_le _)
    · rw [isB]
      push_cast
      ring
    · rw [isB]
      rfl
  · have isR : low = r := by
      rw [← isLow, min_eq_right b_le, min_eq_left ge]
    rcases b_le.lt_or_eq with less | equal
    · apply Hue.rising b 1 (isR.le.trans ge) less (Nat.le_succ _)
      · rw [isR]
        push_cast
        ring
      · rw [isR]
        rfl
    · apply Hue.falling g 1 (sub_pos.mp pos) le_rfl (Nat.le_succ _)
      · rw [equal, ← isR, div_self pos.ne']
        push_cast
        ring
      · rw [equal, isR]
        rfl

omit [IsStrictOrderedRing K] in
/-- Blue is the largest component alone: the hue is around two thirds. -/
theorem hue_blue (isLow : min r (min g b) = low) (r_lt : r < b) (g_lt : g < b) :
    Hue ⟨r, g, b, a⟩ b low (((r - g) / (b - low) + 4) / 6) := by
  rcases lt_or_ge r g with less | ge
  · have isR : low = r := by
      rw [← isLow, min_eq_left g_lt.le, min_eq_left less.le]
    apply Hue.falling g 1 (isR.trans_lt less) g_lt.le (Nat.le_succ _)
    · rw [isR]
      push_cast
      ring
    · rw [isR]
      rfl
  · have isG : low = g := by
      rw [← isLow, min_eq_left g_lt.le, min_eq_right ge]
    apply Hue.rising r 2 (isG.le.trans ge) r_lt le_rfl
    · rw [isG]
      push_cast
      ring
    · rw [isG]
      rfl

theorem hue_ofRgba (color : Rgba K) :
    Hue color (max color.r (max color.g color.b)) (min color.r (min color.g color.b))
      (ofRgba color).h := by
  rcases color with ⟨r, g, b, a⟩
  have hue := h_ofRgba ⟨r, g, b, a⟩ rfl rfl
  dsimp only at hue ⊢
  rw [hue]
  clear hue
  generalize isHigh : max r (max g b) = high
  generalize isLow : min r (min g b) = low
  have r_le : r ≤ high := isHigh ▸ le_max_left _ _
  have g_le : g ≤ high := isHigh ▸ (le_max_left _ _).trans (le_max_right _ _)
  have b_le : b ≤ high := isHigh ▸ (le_max_right _ _).trans (le_max_right _ _)
  have le_r : low ≤ r := isLow ▸ min_le_left _ _
  have le_g : low ≤ g := isLow ▸ (min_le_right _ _).trans (min_le_left _ _)
  have le_b : low ≤ b := isLow ▸ (min_le_right _ _).trans (min_le_right _ _)
  by_cases flat : high - low = 0
  · have same : high = low := sub_eq_zero.mp flat
    rw [if_pos flat]
    apply Hue.gray same rfl
    rw [arrange, le_antisymm r_le (same.le.trans le_r), le_antisymm (g_le.trans same.le) le_g,
      le_antisymm (b_le.trans same.le) le_b]
  · have pos : 0 < high - low :=
      lt_of_le_of_ne (sub_nonneg.mpr (le_r.trans r_le)) (Ne.symm flat)
    rw [if_neg flat]
    by_cases red : high = r
    · rw [if_pos red]
      rcases red with rfl
      exact hue_red isLow g_le b_le pos
    · rw [if_neg red]
      have r_lt : r < high := lt_of_le_of_ne r_le (Ne.symm red)
      by_cases green : high = g
      · rw [if_pos green]
        rcases green with rfl
        exact hue_green isLow r_lt b_le pos
      · rw [if_neg green]
        have g_lt : g < high := lt_of_le_of_ne g_le (Ne.symm green)
        have blue : b = high := by
          rcases max_choice r (max g b) with first | rest
          · exact absurd (isHigh.symm.trans first) red
          · rcases max_choice g b with second | third
            · exact absurd (isHigh.symm.trans (rest.trans second)) green
            · exact (isHigh.symm.trans (rest.trans third)).symm
        rcases blue with rfl
        exact hue_blue isLow r_lt g_lt

/-- A hue is a point of the circle. -/
theorem Hue.mem_circle {color : Rgba K} {high low hue : K} (at_hue : Hue color high low hue) :
    0 ≤ hue ∧ hue < 1 := by
  cases at_hue with
  | gray same zero arranged =>
      rw [zero]
      exact ⟨le_rfl, zero_lt_one⟩
  | rising mid pair le lt inCircle at_hue arranged =>
      have pos : 0 < high - low := sub_pos.mpr (le.trans_lt lt)
      have nonneg : 0 ≤ (mid - low) / (high - low) := div_nonneg (sub_nonneg.mpr le) pos.le
      have lt_one : (mid - low) / (high - low) < 1 := by
        rw [div_lt_one pos]
        linarith
      have most : (pair : K) ≤ 2 := by exact_mod_cast inCircle
      have least : (0 : K) ≤ pair := pair.cast_nonneg
      constructor
      · linarith
      · linarith
  | falling mid pair lt le inCircle at_hue arranged =>
      have pos : 0 < high - low := sub_pos.mpr (lt.trans_le le)
      have positive : 0 < (mid - low) / (high - low) := div_pos (sub_pos.mpr lt) pos
      have le_one : (mid - low) / (high - low) ≤ 1 := by
        rw [div_le_one pos]
        linarith
      have most : (pair : K) ≤ 2 := by exact_mod_cast inCircle
      have least : (0 : K) ≤ pair := pair.cast_nonneg
      constructor
      · linarith
      · linarith

/-- Where the hue of a colour, its lightness and its chroma are those of components, the
conversion back gives them. -/
theorem Hue.toRgba_eq {color : Rgba K} {high low : K} {hsla : Hsla K}
    (at_hue : Hue color high low hsla.h) (nonneg : 0 ≤ low) (le_one : high ≤ 1)
    (light : hsla.l = (high + low) / 2)
    (chroma : (1 - |2 * hsla.l - 1|) * hsla.s = high - low) (alpha : hsla.a = color.a) :
    hsla.toRgba = color := by
  cases at_hue with
  | gray same zero arranged =>
      have wave : (high - low) * (1 - |floatRem (hsla.h * 6) 2 - 1|) = low - low := by
        rw [same, sub_self, zero_mul]
      rw [toRgba_eq_arrange nonneg le_rfl same.ge le_one light chroma wave, zero, zero_mul,
        Int.floor_zero, alpha]
      exact arranged.symm
  | rising mid pair le lt inCircle at_hue arranged =>
      have pos : 0 < high - low := sub_pos.mpr (le.trans_lt lt)
      have offset_nonneg : 0 ≤ (mid - low) / (high - low) :=
        div_nonneg (sub_nonneg.mpr le) pos.le
      have offset_lt : (mid - low) / (high - low) < 1 := by
        rw [div_lt_one pos]
        linarith
      have floor : ⌊hsla.h * 6⌋ = 2 * pair := by
        rw [at_hue]
        apply Int.floor_eq_iff.mpr
        push_cast
        constructor
        · linarith
        · linarith
      have wave : (high - low) * (1 - |floatRem (hsla.h * 6) 2 - 1|) = mid - low := by
        rw [at_hue, floatRem_add offset_nonneg (by linarith), abs_of_neg (by linarith)]
        field_simp
        ring
      rw [toRgba_eq_arrange nonneg le lt.le le_one light chroma wave, floor, alpha]
      exact arranged.symm
  | falling mid pair lt le inCircle at_hue arranged =>
      have pos : 0 < high - low := sub_pos.mpr (lt.trans_le le)
      have offset_pos : 0 < (mid - low) / (high - low) := div_pos (sub_pos.mpr lt) pos
      have offset_le : (mid - low) / (high - low) ≤ 1 := by
        rw [div_le_one pos]
        linarith
      have floor : ⌊hsla.h * 6⌋ = 2 * pair + 1 := by
        rw [at_hue]
        apply Int.floor_eq_iff.mpr
        push_cast
        constructor
        · linarith
        · linarith
      have wave : (high - low) * (1 - |floatRem (hsla.h * 6) 2 - 1|) = mid - low := by
        rw [at_hue, floatRem_add (by linarith) (by linarith), abs_of_nonneg (by linarith)]
        field_simp
        ring
      rw [toRgba_eq_arrange nonneg lt.le le le_one light chroma wave, floor, alpha]
      exact arranged.symm

/-- A colour survives the detour. -/
theorem toRgba_ofRgba {color : Rgba K} (inUnit : color.InUnit) :
    (ofRgba color).toRgba = color := by
  rcases inUnit.bounds with ⟨nonneg, le, le_one⟩
  rcases chroma_ofRgba rfl rfl nonneg le le_one with ⟨light, _, chroma⟩
  exact (hue_ofRgba color).toRgba_eq nonneg le_one light chroma rfl

/-- Hue, saturation and lightness are in their ranges. -/
theorem ofRgba_mem {color : Rgba K} (inUnit : color.InUnit) :
    (0 ≤ (ofRgba color).h ∧ (ofRgba color).h < 1) ∧
      (0 ≤ (ofRgba color).s ∧ (ofRgba color).s ≤ 1) ∧
        0 ≤ (ofRgba color).l ∧ (ofRgba color).l ≤ 1 := by
  rcases inUnit.bounds with ⟨nonneg, le, le_one⟩
  rcases chroma_ofRgba rfl rfl nonneg le le_one with ⟨light, saturation, _⟩
  constructor
  · exact (hue_ofRgba color).mem_circle
  · constructor
    · exact saturation
    · rw [light]
      constructor
      · linarith
      · linarith

omit [FloorRing K] in
/-- A component between two components, weighted by an alpha value. -/
theorem weighted_mem {first second alpha : K}
    (isFirst : 0 ≤ first ∧ first ≤ 1) (isSecond : 0 ≤ second ∧ second ≤ 1) (pos : 0 ≤ alpha)
    (lt : alpha ≤ 1) :
    0 ≤ first * (1 - alpha) + second * alpha ∧ first * (1 - alpha) + second * alpha ≤ 1 := by
  constructor
  · exact add_nonneg (mul_nonneg isFirst.1 (sub_nonneg.mpr lt)) (mul_nonneg isSecond.1 pos)
  · calc
      first * (1 - alpha) + second * alpha ≤ 1 * (1 - alpha) + 1 * alpha :=
        add_le_add (mul_le_mul_of_nonneg_right isFirst.2 (sub_nonneg.mpr lt))
          (mul_le_mul_of_nonneg_right isSecond.2 pos)
      _ = 1 := by ring

omit [FloorRing K] in
theorem inUnit_blend {color other : Rgba K} (inUnit : color.InUnit) (otherInUnit : other.InUnit) :
    (color.blend other).InUnit := by
  rw [Rgba.blend]
  by_cases full : 1 ≤ other.a
  · rw [if_pos full]
    exact otherInUnit
  · rw [if_neg full]
    by_cases clear : other.a ≤ 0
    · rw [if_pos clear]
      exact inUnit
    · rw [if_neg clear]
      have pos := (not_le.mp clear).le
      have lt := (not_le.mp full).le
      exact ⟨weighted_mem inUnit.r otherInUnit.r pos lt,
        weighted_mem inUnit.g otherInUnit.g pos lt, weighted_mem inUnit.b otherInUnit.b pos lt⟩

theorem inUnit_toRgba (color : Hsla K) : color.toRgba.InUnit where
  r := clampUnit_mem _
  g := clampUnit_mem _
  b := clampUnit_mem _

/-- Blending is blending of components. -/
theorem toRgba_blend (self other : Hsla K) :
    (self.blend other).toRgba = self.toRgba.blend other.toRgba := by
  have alpha : other.toRgba.a = other.a := rfl
  rw [blend]
  by_cases full : 1 ≤ other.a
  · rw [if_pos full, Rgba.blend, alpha, if_pos full]
  · rw [if_neg full]
    by_cases clear : other.a ≤ 0
    · rw [if_pos clear, Rgba.blend, alpha, if_neg full, if_pos clear]
    · rw [if_neg clear]
      exact toRgba_ofRgba (inUnit_blend self.inUnit_toRgba other.inUnit_toRgba)

theorem blend_ofRgba {color other : Rgba K} (inUnit : color.InUnit) (otherInUnit : other.InUnit) :
    (ofRgba color).blend (ofRgba other) = ofRgba (color.blend other) := by
  have alpha : (ofRgba other).a = other.a := rfl
  rw [blend, alpha, toRgba_ofRgba inUnit, toRgba_ofRgba otherInUnit, Rgba.blend]
  by_cases full : 1 ≤ other.a
  · rw [if_pos full, if_pos full]
  · rw [if_neg full, if_neg full]
    by_cases clear : other.a ≤ 0
    · rw [if_pos clear, if_pos clear]
    · rw [if_neg clear, if_neg clear]

/-! ## Text -/

/-- `deserialize`. -/
def tryFrom (value : String) : Except String (Hsla K) :=
  (Rgba.tryFrom value).map ofRgba

def serialize (self : Hsla K) : String :=
  self.toRgba.serialize

theorem inUnit_ofBytes (bytes : RgbaBytes) : (Rgba.ofBytes bytes : Rgba K).InUnit := by
  have byte_mem (byte : UInt8) : 0 ≤ (Rgba.ofByte byte : K) ∧ (Rgba.ofByte byte : K) ≤ 1 := by
    have isByte : byte.toNat ≤ 255 := Nat.le_of_lt_succ byte.toNat_lt
    have full : (0 : K) < ((255 : ℕ) : K) := Nat.cast_pos.mpr (by decide)
    rw [Rgba.ofByte]
    constructor
    · exact div_nonneg byte.toNat.cast_nonneg full.le
    · rw [div_le_one full]
      exact_mod_cast isByte
  exact ⟨byte_mem _, byte_mem _, byte_mem _⟩

/-- What is read as a colour is written with eight digits, and read back. -/
theorem serialize_of_tryFrom {value : String} {color : Hsla K} (reads : tryFrom value = .ok color) :
    ∃ bytes, Rgba.parseBytes value = .ok bytes ∧
      color.serialize = Rgba.formatBytes bytes ∧ tryFrom color.serialize = .ok color := by
  rw [tryFrom] at reads
  cases parsed : Rgba.parseBytes value with
  | error message =>
      rw [Rgba.tryFrom, parsed] at reads
      cases reads
  | ok bytes =>
      rw [Rgba.tryFrom, parsed] at reads
      rcases Except.ok.inj reads with rfl
      have written : (ofRgba (Rgba.ofBytes bytes) : Hsla K).serialize =
          Rgba.formatBytes bytes := by
        rw [serialize, toRgba_ofRgba (inUnit_ofBytes bytes), Rgba.serialize_ofBytes]
      apply Exists.intro bytes
      constructor
      · rfl
      · constructor
        · exact written
        · rw [written, tryFrom, Rgba.tryFrom, Rgba.parseBytes_formatBytes]
          rfl

/-- Colours survive the detour through hue, saturation and lightness: so do those that are
read, written or blended there. -/
theorem survives_detour :
    (∀ color : Rgba K, color.InUnit →
      ((0 ≤ (ofRgba color).h ∧ (ofRgba color).h < 1) ∧
        (0 ≤ (ofRgba color).s ∧ (ofRgba color).s ≤ 1) ∧
          0 ≤ (ofRgba color).l ∧ (ofRgba color).l ≤ 1) ∧
      (ofRgba color).toRgba = color) ∧
    (∀ (value : String) (color : Hsla K), tryFrom value = .ok color →
      ∃ bytes, Rgba.parseBytes value = .ok bytes ∧
        color.serialize = Rgba.formatBytes bytes ∧ tryFrom color.serialize = .ok color) ∧
    (∀ self other : Hsla K, (self.blend other).toRgba = self.toRgba.blend other.toRgba) ∧
    ∀ color other : Rgba K, color.InUnit → other.InUnit →
      (ofRgba color).blend (ofRgba other) = ofRgba (color.blend other) := by
  constructor
  · intro color inUnit
    exact ⟨ofRgba_mem inUnit, toRgba_ofRgba inUnit⟩
  · constructor
    · intro value color reads
      exact serialize_of_tryFrom reads
    · constructor
      · exact toRgba_blend
      · intro color other inUnit otherInUnit
        exact blend_ofRgba inUnit otherInUnit

/-- A pink, whose hue is close to the end of the circle. -/
theorem survives_detour_pink :
    (ofRgba ⟨1, 1 / 4, 1 / 2, 1⟩ : Hsla ℚ).toRgba = ⟨1, 1 / 4, 1 / 2, 1⟩ ∧
      (ofRgba ⟨1, 1 / 4, 1 / 2, 1⟩ : Hsla ℚ).h = 17 / 18 :=
  ⟨(survives_detour.1 ⟨1, 1 / 4, 1 / 2, 1⟩ ⟨by decide +kernel, by decide +kernel,
    by decide +kernel⟩).2, by decide +kernel⟩

end Hsla

end Gpui
