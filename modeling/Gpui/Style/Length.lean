import Gpui.TextSystem.TextMeasure

/-!
# Lengths as text

A length is written as a number with a unit, and read back by trying the units one after
the other.  Numbers in pixels and rems are written as they are; the percentage of a fraction
is cut off to an integer.

The reading and the writing of a number are those of the standard library, on exact values.
-/

namespace Gpui

/-- A value of an `f32`, whose zeroes are the same. -/
inductive FloatValue (K : Type) where
  | finite (value : K)
  | infinite (negative : Bool)
  | nan
deriving DecidableEq, Repr

namespace FloatValue

variable {K : Type}

/-- `==`, by which not even a `NaN` is a `NaN`. -/
def Equals (first second : FloatValue K) : Prop :=
  first = second ∧ first ≠ nan

variable [Field K] [LinearOrder K]

/-- The quotient by a positive number. -/
def div (self : FloatValue K) (divisor : K) : FloatValue K :=
  match self with
  | finite value => finite (value / divisor)
  | other => other

/-- The product with a positive number. -/
def mul (self : FloatValue K) (factor : K) : FloatValue K :=
  match self with
  | finite value => finite (value * factor)
  | other => other

def i32Max : Int := 2147483647

def i32Min : Int := -2147483648

/-- `as i32`, which cuts off the fraction and saturates. -/
def toI32 [FloorRing K] : FloatValue K → Int
  | finite value => max i32Min (min i32Max (if 0 ≤ value then ⌊value⌋ else ⌈value⌉))
  | infinite negative => if negative then i32Min else i32Max
  | nan => 0

end FloatValue

/-- `f32::from_str`, with the texts of its errors, and `Display`. -/
structure FloatText (K : Type) where
  parse : String → Except String (FloatValue K)
  display : FloatValue K → String

inductive Length (K : Type) where
  | definite (length : DefiniteLength K)
  | auto
deriving DecidableEq

/-- `strip_suffix`. -/
def stripSuffix (value suffix : String) : Option String :=
  if suffix.toList <:+ value.toList then
    some (String.ofList (value.toList.take (value.toList.length - suffix.toList.length)))
  else none

/-- Without its suffix, what a text is put together from. -/
theorem stripSuffix_append (number suffix : String) :
    stripSuffix (number ++ suffix) suffix = some number := by
  rw [stripSuffix, if_pos]
  · simp
  · rw [String.toList_append]
    exact List.suffix_append _ _

/-- Texts of different ends have no suffix in common. -/
theorem stripSuffix_eq_none {value suffix : String}
    (differs : value.toList.getLast? ≠ suffix.toList.getLast?) (nonempty : suffix ≠ "") :
    stripSuffix value suffix = none := by
  rw [stripSuffix, if_neg]
  rintro ⟨front, isValue⟩
  apply differs
  have some_ : suffix.toList ≠ [] := fun isNil => nonempty (String.toList_eq_nil_iff.mp isNil)
  rw [← isValue, List.getLast?_append_of_ne_nil _ some_]

section

variable {K : Type}

namespace Pixels

def tryFrom (text : FloatText K) (value : String) : Except String (FloatValue K) :=
  match stripSuffix value "px" with
  | some number => text.parse number
  | none => .error "expected 'px' suffix"

def toString (text : FloatText K) (pixels : FloatValue K) : String :=
  text.display pixels ++ "px"

end Pixels

namespace Rems

def tryFrom (text : FloatText K) (value : String) : Except String (FloatValue K) :=
  match stripSuffix value "rem" with
  | some number => text.parse number
  | none => .error "expected 'rem' suffix"

def toString (text : FloatText K) (rems : FloatValue K) : String :=
  text.display rems ++ "rem"

end Rems

def expectedAbsoluteLength : String := "number with 'px' or 'rem' suffix"

def expectedDefiniteLength : String := "expected number with 'px', 'rem', or '%' suffix"

def expectedLength : String := "expected 'auto' or number with 'px', 'rem', or '%' suffix"

/-- The error of a length that is none. -/
def invalidLength (kind value expected : String) : String :=
  "invalid " ++ kind ++ " '" ++ value ++ "', expected " ++ expected

namespace AbsoluteLength

def tryFrom (text : FloatText K) (value : String) : Except String (AbsoluteLength (FloatValue K)) :=
  match Pixels.tryFrom text value with
  | .ok length => .ok (.pixels length)
  | .error _ =>
      match Rems.tryFrom text value with
      | .ok length => .ok (.rems length)
      | .error _ => .error (invalidLength "AbsoluteLength" value expectedAbsoluteLength)

def toString (text : FloatText K) : AbsoluteLength (FloatValue K) → String
  | .pixels length => Pixels.toString text length
  | .rems length => Rems.toString text length

end AbsoluteLength

variable [Field K] [LinearOrder K]

namespace DefiniteLength

def tryFrom (text : FloatText K) (value : String) : Except String (DefiniteLength (FloatValue K)) :=
  match stripSuffix value "%" with
  | some percentage =>
      match text.parse percentage with
      | .ok number => .ok (.fraction (number.div ((100 : ℕ) : K)))
      | .error _ => .error (invalidLength "DefiniteLength" value expectedDefiniteLength)
  | none =>
      match AbsoluteLength.tryFrom text value with
      | .ok length => .ok (.absolute length)
      | .error _ => .error (invalidLength "DefiniteLength" value expectedDefiniteLength)

/-- `(fraction * 100.0) as i32`. -/
def percentage [FloorRing K] (ratio : FloatValue K) : Int :=
  (ratio.mul ((100 : ℕ) : K)).toI32

def toString [FloorRing K] (text : FloatText K) : DefiniteLength (FloatValue K) → String
  | .absolute length => AbsoluteLength.toString text length
  | .fraction ratio => ToString.toString (percentage ratio) ++ "%"

end DefiniteLength

namespace Length

def tryFrom (text : FloatText K) (value : String) : Except String (Length (FloatValue K)) :=
  if value = "auto" then .ok .auto
  else
    match DefiniteLength.tryFrom text value with
    | .ok length => .ok (.definite length)
    | .error _ => .error (invalidLength "Length" value expectedLength)

def toString [FloorRing K] (text : FloatText K) : Length (FloatValue K) → String
  | .definite length => DefiniteLength.toString text length
  | .auto => "auto"

end Length

end

/-! ## Writing and reading back -/

namespace AbsoluteLength

variable {K : Type}

def number : AbsoluteLength (FloatValue K) → FloatValue K
  | .pixels length => length
  | .rems length => length

/-- `==` of the derived `PartialEq`. -/
def Equals : AbsoluteLength (FloatValue K) → AbsoluteLength (FloatValue K) → Prop
  | .pixels first, .pixels second => first.Equals second
  | .rems first, .rems second => first.Equals second
  | _, _ => False

/-- The number of the length is read as it is written. -/
def ReadsBack (text : FloatText K) (length : AbsoluteLength (FloatValue K)) : Prop :=
  text.parse (text.display length.number) = .ok length.number

def RoundTrips (text : FloatText K) (length : AbsoluteLength (FloatValue K)) : Prop :=
  ∃ back, tryFrom text (toString text length) = .ok back ∧ back.Equals length

theorem tryFrom_toString {text : FloatText K} {length : AbsoluteLength (FloatValue K)}
    (reads : ReadsBack text length) : tryFrom text (toString text length) = .ok length := by
  cases length with
  | pixels length =>
      simp only [tryFrom, toString, Pixels.tryFrom, Pixels.toString, stripSuffix_append]
      rw [show text.parse (text.display length) = .ok length from reads]
  | rems length =>
      have noPixels : stripSuffix (text.display length ++ "rem") "px" = none := by
        apply stripSuffix_eq_none
        · rw [String.toList_append, List.getLast?_append_of_ne_nil _ (by decide)]
          decide
        · decide
      simp only [tryFrom, toString, Pixels.tryFrom, Rems.toString, noPixels, Rems.tryFrom,
        stripSuffix_append]
      rw [show text.parse (text.display length) = .ok length from reads]

theorem equals_self_iff (length : AbsoluteLength (FloatValue K)) :
    length.Equals length ↔ length.number ≠ .nan := by
  cases length with
  | pixels length => exact and_iff_right rfl
  | rems length => exact and_iff_right rfl

theorem roundTrips_iff {text : FloatText K} {length : AbsoluteLength (FloatValue K)}
    (reads : ReadsBack text length) : RoundTrips text length ↔ length.number ≠ .nan := by
  rw [← equals_self_iff]
  constructor
  · rintro ⟨back, isBack, equals⟩
    rcases Except.ok.inj (isBack.symm.trans (tryFrom_toString reads)) with rfl
    exact equals
  · intro equals
    exact ⟨length, tryFrom_toString reads, equals⟩

/-- A length does not end as a percentage does. -/
theorem stripSuffix_percent (text : FloatText K) (length : AbsoluteLength (FloatValue K)) :
    stripSuffix (toString text length) "%" = none := by
  apply stripSuffix_eq_none
  · cases length with
    | pixels length =>
        rw [toString, Pixels.toString, String.toList_append,
          List.getLast?_append_of_ne_nil _ (by decide)]
        decide
    | rems length =>
        rw [toString, Rems.toString, String.toList_append,
          List.getLast?_append_of_ne_nil _ (by decide)]
        decide
  · decide

end AbsoluteLength

section

variable {K : Type} [Field K] [LinearOrder K] [FloorRing K]

namespace DefiniteLength

def Equals : DefiniteLength (FloatValue K) → DefiniteLength (FloatValue K) → Prop
  | .absolute first, .absolute second => first.Equals second
  | .fraction first, .fraction second => first.Equals second
  | _, _ => False

/-- The number that is written is read as it is. -/
def ReadsBack (text : FloatText K) : DefiniteLength (FloatValue K) → Prop
  | .absolute length => length.ReadsBack text
  | .fraction ratio =>
      text.parse (ToString.toString (percentage ratio)) =
        .ok (.finite (percentage ratio : K))

def RoundTrips (text : FloatText K) (length : DefiniteLength (FloatValue K)) : Prop :=
  ∃ back, tryFrom text (toString text length) = .ok back ∧ back.Equals length

/-- What is written without a loss: a number, or an integer of percents. -/
def Exact : DefiniteLength (FloatValue K) → Prop
  | .absolute length => length.number ≠ .nan
  | .fraction ratio =>
      ∃ (value : K) (percents : Int), ratio = .finite value ∧
        value * ((100 : ℕ) : K) = percents ∧ FloatValue.i32Min ≤ percents ∧
          percents ≤ FloatValue.i32Max

end DefiniteLength

variable [IsStrictOrderedRing K]

/-- An integer of an `i32` is cut off to itself. -/
theorem FloatValue.toI32_intCast {number : Int} (atLeast : i32Min ≤ number)
    (atMost : number ≤ i32Max) :
    toI32 (.finite (number : K)) = number := by
  simp only [toI32, Int.floor_intCast, Int.ceil_intCast, ite_self, min_eq_right atMost,
    max_eq_right atLeast]

omit [IsStrictOrderedRing K] in
theorem FloatValue.toI32_bounds (number : FloatValue K) :
    i32Min ≤ number.toI32 ∧ number.toI32 ≤ i32Max := by
  have ordered : i32Min ≤ i32Max := by decide
  cases number with
  | finite value =>
      constructor
      · exact le_max_left _ _
      · exact max_le ordered (min_le_left _ _)
  | infinite negative =>
      cases negative with
      | false => exact ⟨ordered, le_refl _⟩
      | true => exact ⟨le_refl _, ordered⟩
  | nan =>
      change i32Min ≤ 0 ∧ 0 ≤ i32Max
      decide

namespace DefiniteLength

omit [IsStrictOrderedRing K] in
theorem tryFrom_toString_absolute {text : FloatText K} {length : AbsoluteLength (FloatValue K)}
    (reads : length.ReadsBack text) :
    tryFrom text (toString text (.absolute length)) = .ok (.absolute length) := by
  simp only [tryFrom, toString, AbsoluteLength.stripSuffix_percent,
    AbsoluteLength.tryFrom_toString reads]

omit [IsStrictOrderedRing K] in
theorem tryFrom_toString_fraction {text : FloatText K} {ratio : FloatValue K}
    (reads : ReadsBack text (.fraction ratio)) :
    tryFrom text (toString text (.fraction ratio)) =
      .ok (.fraction (.finite ((percentage ratio : K) / ((100 : ℕ) : K)))) := by
  simp only [tryFrom, toString, stripSuffix_append]
  rw [show text.parse (ToString.toString (percentage ratio)) = _ from reads]
  rfl

/-- The percentage of a fraction is the fraction if it is an integer of an `i32`. -/
theorem finite_percentage_iff (ratio : FloatValue K) :
    (FloatValue.finite ((percentage ratio : K) / ((100 : ℕ) : K))).Equals ratio ↔
      Exact (.fraction ratio) := by
  have hundred : ((100 : ℕ) : K) ≠ 0 := Nat.cast_ne_zero.mpr (by decide)
  constructor
  · rintro ⟨same, -⟩
    refine ⟨_, percentage ratio, same.symm, div_mul_cancel₀ _ hundred, ?_⟩
    exact FloatValue.toI32_bounds _
  · rintro ⟨value, percents, rfl, isInt, atLeast, atMost⟩
    have isPercentage : percentage (.finite value) = percents := by
      rw [percentage, FloatValue.mul, isInt]
      exact FloatValue.toI32_intCast atLeast atMost
    rw [isPercentage, ← isInt, mul_div_cancel_right₀ _ hundred]
    constructor
    · rfl
    · intro isNan
      cases isNan

theorem roundTrips_iff {text : FloatText K} {length : DefiniteLength (FloatValue K)}
    (reads : ReadsBack text length) : RoundTrips text length ↔ Exact length := by
  cases length with
  | absolute length =>
      have same := tryFrom_toString_absolute reads
      rw [show Exact (.absolute length) ↔ length.number ≠ .nan from Iff.rfl,
        ← AbsoluteLength.equals_self_iff]
      constructor
      · rintro ⟨back, isBack, equals⟩
        rcases Except.ok.inj (isBack.symm.trans same) with rfl
        exact equals
      · intro equals
        exact ⟨_, same, equals⟩
  | fraction ratio =>
      have read := tryFrom_toString_fraction reads
      rw [← finite_percentage_iff]
      constructor
      · rintro ⟨back, isBack, equals⟩
        rcases Except.ok.inj (isBack.symm.trans read) with rfl
        exact equals
      · intro equals
        exact ⟨_, read, equals⟩

omit [IsStrictOrderedRing K] in
theorem toString_ne_auto (text : FloatText K) (length : DefiniteLength (FloatValue K)) :
    toString text length ≠ "auto" := by
  intro isAuto
  have last : (toString text length).toList.getLast? = some 'o' := by
    rw [isAuto]
    decide
  cases length with
  | absolute length =>
      cases length with
      | pixels length =>
          rw [toString, AbsoluteLength.toString, Pixels.toString, String.toList_append,
            List.getLast?_append_of_ne_nil _ (by decide)] at last
          revert last
          decide
      | rems length =>
          rw [toString, AbsoluteLength.toString, Rems.toString, String.toList_append,
            List.getLast?_append_of_ne_nil _ (by decide)] at last
          revert last
          decide
  | fraction ratio =>
      rw [toString, String.toList_append,
        List.getLast?_append_of_ne_nil _ (by decide)] at last
      revert last
      decide

end DefiniteLength

namespace Length

def Equals : Length (FloatValue K) → Length (FloatValue K) → Prop
  | .definite first, .definite second => first.Equals second
  | .auto, .auto => True
  | _, _ => False

def ReadsBack (text : FloatText K) : Length (FloatValue K) → Prop
  | .definite length => length.ReadsBack text
  | .auto => True

def RoundTrips (text : FloatText K) (length : Length (FloatValue K)) : Prop :=
  ∃ back, tryFrom text (toString text length) = .ok back ∧ back.Equals length

def Exact : Length (FloatValue K) → Prop
  | .definite length => length.Exact
  | .auto => True

omit [IsStrictOrderedRing K] in
theorem tryFrom_toString_definite (text : FloatText K) (length : DefiniteLength (FloatValue K)) :
    tryFrom text (toString text (.definite length)) =
      match DefiniteLength.tryFrom text (DefiniteLength.toString text length) with
      | .ok length => .ok (.definite length)
      | .error _ =>
          .error (invalidLength "Length" (DefiniteLength.toString text length)
            expectedLength) := by
  have notAuto : toString text (.definite length) ≠ "auto" :=
    DefiniteLength.toString_ne_auto text length
  rw [tryFrom, if_neg notAuto]
  rfl

theorem roundTrips_iff {text : FloatText K} {length : Length (FloatValue K)}
    (reads : ReadsBack text length) : RoundTrips text length ↔ Exact length := by
  cases length with
  | auto => exact iff_of_true ⟨.auto, rfl, trivial⟩ trivial
  | definite length =>
      have definiteReads : DefiniteLength.ReadsBack text length := reads
      rw [show Exact (.definite length) ↔ length.Exact from Iff.rfl,
        ← DefiniteLength.roundTrips_iff definiteReads, RoundTrips,
        tryFrom_toString_definite, DefiniteLength.RoundTrips]
      constructor
      · rintro ⟨back, isBack, equals⟩
        cases read : DefiniteLength.tryFrom text (DefiniteLength.toString text length) with
        | error message =>
            rw [read] at isBack
            cases isBack
        | ok definite =>
            rw [read] at isBack
            rcases Except.ok.inj isBack with rfl
            exact ⟨definite, rfl, equals⟩
      · rintro ⟨back, isBack, equals⟩
        refine ⟨.definite back, ?_, equals⟩
        rw [isBack]

end Length

/-- Lengths that were read survive writing, but for a `NaN` and for fractions that are not an
integer of percents. -/
theorem lengths_roundTrip_iff (text : FloatText K) (value : String) :
    (∀ length, AbsoluteLength.tryFrom text value = .ok length →
      AbsoluteLength.ReadsBack text length →
        (AbsoluteLength.RoundTrips text length ↔ length.number ≠ .nan)) ∧
    (∀ length, DefiniteLength.tryFrom text value = .ok length →
      DefiniteLength.ReadsBack text length →
        (DefiniteLength.RoundTrips text length ↔ length.Exact)) ∧
    ∀ length, Length.tryFrom text value = .ok length → Length.ReadsBack text length →
      (Length.RoundTrips text length ↔ length.Exact) :=
  ⟨fun _ _ reads => AbsoluteLength.roundTrips_iff reads,
    fun _ _ reads => DefiniteLength.roundTrips_iff reads,
    fun _ _ reads => Length.roundTrips_iff reads⟩

end

/-! ## Decimal numbers -/

namespace FloatText

/-- The leading digits: their number, how many they are and what follows them. -/
def readDigits : List Char → Nat → Nat → Nat × Nat × List Char
  | [], number, count => (number, count, [])
  | c :: rest, number, count =>
      if c.isDigit then readDigits rest (number * 10 + (c.toNat - '0'.toNat)) (count + 1)
      else (number, count, c :: rest)

/-- An optional sign. -/
def readSign : List Char → Bool × List Char
  | '-' :: rest => (true, rest)
  | '+' :: rest => (false, rest)
  | rest => (false, rest)

/-- The exponent of ten, which is not there in an empty rest. -/
def readExponent : List Char → Option Int
  | [] => some 0
  | e :: rest =>
      if e = 'e' ∨ e = 'E' then
        let (negative, rest) := readSign rest
        match readDigits rest 0 0 with
        | (_, 0, _) | (_, _, _ :: _) => none
        | (number, _, []) => some (if negative then -number else number)
      else none

/-- `Digit+`, `Digit+ '.' Digit*` or `Digit* '.' Digit+`, and an exponent. -/
def readNumber (chars : List Char) : Option ℚ :=
  let (whole, wholeCount, rest) := readDigits chars 0 0
  let (number, count, rest) :=
    match rest with
    | '.' :: rest =>
        let (number, count, rest) := readDigits rest whole 0
        (number, count, rest)
    | rest => (whole, 0, rest)
  if wholeCount + count = 0 then none
  else (readExponent rest).map fun exponent : Int =>
    (number : ℚ) * (10 : ℚ) ^ (exponent - (count : Int))

def parseDecimal (value : String) : Except String (FloatValue ℚ) :=
  if value = "" then .error "cannot parse float from empty string"
  else
    let (negative, rest) := readSign value.toList
    let word := rest.map Char.toLower
    if word = "inf".toList ∨ word = "infinity".toList then .ok (.infinite negative)
    else if word = "nan".toList then .ok .nan
    else
      match readNumber rest with
      | some number => .ok (.finite (if negative then -number else number))
      | none => .error "invalid float literal"

/-- Decimal places of a fraction below one, at most so many. -/
def decimalPlaces : Nat → ℚ → List Char
  | 0, _ => []
  | places + 1, fraction =>
      if fraction = 0 then []
      else
        let digit := ⌊fraction * 10⌋.toNat
        Nat.digitChar digit :: decimalPlaces places (fraction * 10 - digit)

def displayDecimal : FloatValue ℚ → String
  | .nan => "NaN"
  | .infinite negative => if negative then "-inf" else "inf"
  | .finite value =>
      let whole := ⌊|value|⌋.toNat
      (if value < 0 then "-" else "") ++ ToString.toString whole ++
        (if |value| = whole then ""
          else "." ++ String.ofList (decimalPlaces 149 (|value| - whole)))

def decimal : FloatText ℚ where
  parse := parseDecimal
  display := displayDecimal

end FloatText

/-- Twelve percent is written and read back. -/
theorem lengths_roundTrip_iff_percents :
    Length.RoundTrips FloatText.decimal (.definite (.fraction (.finite (12 / 100)))) := by
  apply ((lengths_roundTrip_iff FloatText.decimal "12%").2.2 _ ?_ ?_).mpr
  · refine ⟨12 / 100, 12, rfl, ?_, ?_, ?_⟩
    all_goals decide +kernel
  · decide +kernel
  · change FloatText.parseDecimal _ = _
    decide +kernel

/-- Twelve and a half percent is written as twelve. -/
theorem not_lengths_roundTrip :
    Length.tryFrom FloatText.decimal "12.5%" =
        .ok (.definite (.fraction (.finite (1 / 8)))) ∧
      ¬ Length.RoundTrips FloatText.decimal (.definite (.fraction (.finite (1 / 8)))) := by
  constructor
  · decide +kernel
  · rintro ⟨back, isBack, equals⟩
    have read : Length.tryFrom FloatText.decimal
        (Length.toString FloatText.decimal (.definite (.fraction (.finite (1 / 8))))) =
          .ok (.definite (.fraction (.finite (12 / 100)))) := by
      decide +kernel
    rcases Except.ok.inj (read.symm.trans isBack) with rfl
    exact absurd equals.1 (by decide +kernel)

end Gpui
