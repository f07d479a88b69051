import Gpui.Keymap.Lexical
import Gpui.Library.HexText
import Gpui.Style.Highlight

/-!
# Colours as text

A colour is read from `#rgb`, `#rgba`, `#rrggbb` or `#rrggbbaa`, and written in the last of
these forms.  The components are cut out by bytes and read by the parser of integers, which
takes a sign.

Components of a colour are exact.
-/

namespace Gpui

open Library

/-- `str::trim`. -/
def trim (text : List Char) : List Char :=
  ((text.dropWhile isWhitespace).reverse.dropWhile isWhitespace).reverse

/-- `str::split_once`. -/
def splitOnce (separator : Char) : List Char → Option (List Char × List Char)
  | [] => none
  | c :: text =>
      if c = separator then some ([], text)
      else (splitOnce separator text).map fun parts => (c :: parts.1, parts.2)

/-- Digits after those that have been read, as a number that fits in a byte. -/
def readHexDigits : Nat → List Char → Except String Nat
  | number, [] => .ok number
  | number, c :: rest =>
      match hexValue c with
      | none => .error "invalid digit found in string"
      | some digit =>
          if number * 16 + digit < 256 then readHexDigits (number * 16 + digit) rest
          else .error "number too large to fit in target type"

/-- `u8::from_str_radix(_, 16)`. -/
def u8FromStrRadix (text : List Char) : Except String UInt8 :=
  match text with
  | [] => .error "cannot parse integer from empty string"
  | ['+'] | ['-'] => .error "invalid digit found in string"
  | '+' :: digits => (readHexDigits 0 digits).map UInt8.ofNat
  | digits => (readHexDigits 0 digits).map UInt8.ofNat

/-- The components of a colour in bytes. -/
structure RgbaBytes where
  r : UInt8
  g : UInt8
  b : UInt8
  a : UInt8
deriving DecidableEq, Repr

namespace Rgba

def expectedFormats : String := "Expected #rgb, #rgba, #rrggbb, or #rrggbbaa"

def invalidUnicode : String := "invalid unicode characters in color"

def invalidColor (value : String) : String :=
  "invalid RGBA hex color: '" ++ value ++ "'. " ++ expectedFormats

/-- A component, which is between two bytes of the text. -/
def component (value : String) (hex : List Char) (start stop : Nat) (name formats : String) :
    Except String UInt8 :=
  match getBytes hex start stop with
  | some text => u8FromStrRadix text
  | none =>
      .error (invalidUnicode ++ ": " ++ name ++ " component of " ++ formats ++
        " for value: '" ++ value ++ "'")

/-- The last component, if the text has one. -/
def alphaComponent (value : String) (hex : List Char) (width : Nat) (alphaFormat : String)
    (fullAlpha : UInt8) : Except String UInt8 :=
  if String.utf8Len hex = 4 * width then
    component value hex (3 * width) (4 * width) "a" alphaFormat
  else .ok fullAlpha

/-- The components of a colour with so many digits each. -/
def components (value : String) (hex : List Char) (width : Nat) (formats alphaFormat : String)
    (fullAlpha : UInt8) : Except String RgbaBytes := do
  let r ← component value hex 0 width "r" formats
  let g ← component value hex width (2 * width) "g" formats
  let b ← component value hex (2 * width) (3 * width) "b" formats
  let a ← alphaComponent value hex width alphaFormat fullAlpha
  return ⟨r, g, b, a⟩

/-- Duplicates a given hex digit. -/
def duplicate (value : UInt8) : UInt8 :=
  (value <<< 4) ||| value

def duplicateBytes (bytes : RgbaBytes) : RgbaBytes :=
  ⟨duplicate bytes.r, duplicate bytes.g, duplicate bytes.b, duplicate bytes.a⟩

def parseBytes (value : String) : Except String RgbaBytes :=
  match splitOnce '#' (trim value.toList) with
  | some ([], hex) =>
      if String.utf8Len hex = 3 ∨ String.utf8Len hex = 4 then
        (components value hex 1 "#rgb/#rgba" "#rgba" 0xf).map duplicateBytes
      else if String.utf8Len hex = 6 ∨ String.utf8Len hex = 8 then
        components value hex 2 "#rrggbb/#rrggbbaa" "#rrggbbaa" 0xff
      else .error (invalidColor value)
  | _ => .error (invalidColor value)

variable {K : Type} [Field K]

def ofByte (byte : UInt8) : K :=
  (byte.toNat : K) / ((255 : ℕ) : K)

def ofBytes (bytes : RgbaBytes) : Rgba K :=
  ⟨ofByte bytes.r, ofByte bytes.g, ofByte bytes.b, ofByte bytes.a⟩

/-- `try_from`. -/
def tryFrom (value : String) : Except String (Rgba K) :=
  (parseBytes value).map ofBytes

variable [LinearOrder K] [FloorRing K]

/-- `(component * 255.0).round() as u8`, which saturates. -/
def toByte (component : K) : UInt8 :=
  UInt8.ofNat (min 255 (floatRound (component * ((255 : ℕ) : K))).toNat)

/-- `#{r:02x}{g:02x}{b:02x}{a:02x}`. -/
def formatBytes (bytes : RgbaBytes) : String :=
  String.ofList ('#' :: (formatHex bytes.r ++ (formatHex bytes.g ++
    (formatHex bytes.b ++ formatHex bytes.a))))

def serialize (self : Rgba K) : String :=
  formatBytes ⟨toByte self.r, toByte self.g, toByte self.b, toByte self.a⟩

end Rgba

/-! ## The grammar -/

def isHexDigit (c : Char) : Bool :=
  (hexValue c).isSome

/-- `^#([0-9a-fA-F]{3}|[0-9a-fA-F]{4}|[0-9a-fA-F]{6}|[0-9a-fA-F]{8})$`. -/
def IsColor (text : List Char) : Prop :=
  ∃ digits, text = '#' :: digits ∧ digits.all isHexDigit = true ∧
    (digits.length = 3 ∨ digits.length = 4 ∨ digits.length = 6 ∨ digits.length = 8)

/-- The eight digits in lower case of what follows `#`. -/
def eightDigits (digits : List Char) : List Char :=
  let doubled := if digits.length ≤ 4 then digits.flatMap fun c => [c, c] else digits
  let full := if doubled.length = 6 then doubled ++ ['f', 'f'] else doubled
  full.map Char.toLower

/-- Pairs of digits, the first of which may be a sign. -/
def signedPairs : List Char → Bool
  | [] => true
  | first :: second :: rest =>
      (first = '+' || isHexDigit first) && isHexDigit second && signedPairs rest
  | _ => false

/-- Six or eight characters with a sign in place of a first digit. -/
def IsSigned (text : List Char) : Prop :=
  ∃ hex, text = '#' :: hex ∧ signedPairs hex = true ∧ '+' ∈ hex ∧
    (hex.length = 6 ∨ hex.length = 8)

namespace Rgba

variable {K : Type} [Field K] [LinearOrder K] [FloorRing K]

/-- A text is read if it is in the grammar, and a colour that is read is written with eight
digits and read back. -/
def ParsesGrammar (K : Type) [Field K] [LinearOrder K] [FloorRing K] (value : String) : Prop :=
  ((∃ rgba : Rgba K, tryFrom value = .ok rgba) ↔ IsColor (trim value.toList)) ∧
    ∀ (rgba : Rgba K) (hex : List Char), tryFrom value = .ok rgba →
      trim value.toList = '#' :: hex →
        serialize rgba = String.ofList ('#' :: eightDigits hex) ∧
          tryFrom (serialize rgba) = .ok rgba

end Rgba

/-! ## Reading -/

theorem bind_eq_ok {ε α β : Type} {first : Except ε α} {next : α → Except ε β} {value : β} :
    (first >>= next) = .ok value ↔ ∃ found, first = .ok found ∧ next found = .ok value := by
  cases first with
  | error => simp [bind, Except.bind]
  | ok found => simp [bind, Except.bind]

theorem splitOnce_eq_some_nil {separator : Char} {text rest : List Char} :
    splitOnce separator text = some ([], rest) ↔ text = separator :: rest := by
  cases text with
  | nil => simp [splitOnce]
  | cons c text =>
      by_cases isSeparator : c = separator
      · simp [splitOnce, isSeparator]
      · simp [splitOnce, isSeparator]

theorem readHexDigits_cons {number digit : Nat} {c : Char} (rest : List Char)
    (isValue : hexValue c = some digit) (fits : number * 16 + digit < 256) :
    readHexDigits number (c :: rest) = readHexDigits (number * 16 + digit) rest := by
  rw [readHexDigits, isValue]
  exact if_pos fits

theorem readHexDigits_invalid {number : Nat} {c : Char} (rest : List Char)
    (isValue : hexValue c = none) :
    readHexDigits number (c :: rest) = .error "invalid digit found in string" := by
  rw [readHexDigits, isValue]

theorem map_ofNat_eq_ok {number : Nat} {byte : UInt8} :
    (Except.ok number : Except String Nat).map UInt8.ofNat = .ok byte ↔
      byte = UInt8.ofNat number := by
  rw [Except.map, Except.ok.injEq]
  exact eq_comm

/-- One digit. -/
theorem readHexDigits_singleton {c : Char} {byte : UInt8} :
    (readHexDigits 0 [c]).map UInt8.ofNat = .ok byte ↔
      ∃ digit, hexValue c = some digit ∧ byte = UInt8.ofNat digit := by
  cases isValue : hexValue c with
  | none =>
      rw [readHexDigits_invalid [] isValue]
      simp [Except.map]
  | some digit =>
      have small := (digitChar_of_hexValue isValue).1
      rw [readHexDigits_cons [] isValue (by omega), readHexDigits, map_ofNat_eq_ok]
      simp

theorem hexValue_plus : hexValue '+' = none := by
  decide

theorem hexValue_minus : hexValue '-' = none := by
  decide

/-- One character is read as a digit. -/
theorem u8FromStrRadix_singleton {c : Char} {byte : UInt8} :
    u8FromStrRadix [c] = .ok byte ↔
      ∃ digit, hexValue c = some digit ∧ byte = UInt8.ofNat digit := by
  by_cases isPlus : c = '+'
  · rcases isPlus with rfl
    simp [u8FromStrRadix, hexValue_plus]
  · by_cases isMinus : c = '-'
    · rcases isMinus with rfl
      simp [u8FromStrRadix, hexValue_minus]
    · have reads : u8FromStrRadix [c] = (readHexDigits 0 [c]).map UInt8.ofNat := by
        simp [u8FromStrRadix, isPlus, isMinus]
      rw [reads, readHexDigits_singleton]

/-- Two characters are read as digits, or the second of them after a sign. -/
theorem u8FromStrRadix_pair {first second : Char} {byte : UInt8} :
    u8FromStrRadix [first, second] = .ok byte ↔
      ∃ low, hexValue second = some low ∧
        (first = '+' ∧ byte = UInt8.ofNat low ∨
          ∃ high, hexValue first = some high ∧ byte = UInt8.ofNat (high * 16 + low)) := by
  by_cases isPlus : first = '+'
  · rcases isPlus with rfl
    simp only [u8FromStrRadix, hexValue_plus]
    rw [readHexDigits_singleton]
    simp
  · have reads : u8FromStrRadix [first, second] =
        (readHexDigits 0 [first, second]).map UInt8.ofNat := by
      simp [u8FromStrRadix, isPlus]
    rw [reads]
    cases isHigh : hexValue first with
    | none =>
        rw [readHexDigits_invalid [second] isHigh]
        simp [Except.map, isPlus]
    | some high =>
        have smallHigh := (digitChar_of_hexValue isHigh).1
        rw [readHexDigits_cons [second] isHigh (by omega)]
        cases isLow : hexValue second with
        | none =>
            rw [readHexDigits_invalid [] isLow]
            simp [Except.map]
        | some low =>
            have smallLow := (digitChar_of_hexValue isLow).1
            rw [readHexDigits_cons [] isLow (by omega), readHexDigits, map_ofNat_eq_ok]
            simp [isPlus]

/-- Text of one byte is one character. -/
theorem eq_singleton_of_utf8Len {text : List Char} (size : String.utf8Len text = 1) :
    ∃ c, text = [c] := by
  cases text with
  | nil => simp at size
  | cons c text =>
      have positive := c.utf8Size_pos
      rw [String.utf8Len_cons] at size
      have isNil := String.utf8Len_eq_zero.mp (by omega : String.utf8Len text = 0)
      exact ⟨c, by rw [isNil]⟩

/-- Text of two bytes that is read is two characters. -/
theorem eq_pair_of_utf8Len {text : List Char} {byte : UInt8} (size : String.utf8Len text = 2)
    (reads : u8FromStrRadix text = .ok byte) : ∃ first second, text = [first, second] := by
  cases text with
  | nil => simp at size
  | cons first text =>
      cases text with
      | nil =>
          rcases u8FromStrRadix_singleton.1 reads with ⟨digit, isValue, -⟩
          have oneByte := (digitChar_of_hexValue isValue).2.2
          simp [oneByte] at size
      | cons second text =>
          have firstPos := first.utf8Size_pos
          have secondPos := second.utf8Size_pos
          simp only [String.utf8Len_cons] at size
          have isNil := String.utf8Len_eq_zero.mp (by omega : String.utf8Len text = 0)
          exact ⟨first, second, by rw [isNil]⟩

namespace Rgba

/-- A component is the text of so many bytes behind what is before it. -/
theorem component_append {value name formats : String} {front text : List Char}
    {start stop : Nat} {byte : UInt8} (size : String.utf8Len front = start) :
    component value (front ++ text) start stop name formats = .ok byte ↔
      ∃ part rest, text = part ++ rest ∧ String.utf8Len part = stop - start ∧
        u8FromStrRadix part = .ok byte := by
  rw [component]
  constructor
  · intro reads
    cases found : getBytes (front ++ text) start stop with
    | none =>
        rw [found] at reads
        cases reads
    | some part =>
        rw [found] at reads
        rcases (getBytes_append_eq_some_iff size).mp found with ⟨rest, isText, partSize⟩
        exact ⟨part, rest, isText, partSize, reads⟩
  · rintro ⟨part, rest, isText, partSize, reads⟩
    have found := (getBytes_append_eq_some_iff size).mpr ⟨rest, isText, partSize⟩
    rw [found]
    exact reads

/-- The texts of the components and the bytes they are read as. -/
def Cut (hex : List Char) (width : Nat) (fullAlpha : UInt8) (bytes : RgbaBytes) : Prop :=
  ∃ r g b a, hex = r ++ (g ++ (b ++ a)) ∧
    String.utf8Len r = width ∧ u8FromStrRadix r = .ok bytes.r ∧
    String.utf8Len g = width ∧ u8FromStrRadix g = .ok bytes.g ∧
    String.utf8Len b = width ∧ u8FromStrRadix b = .ok bytes.b ∧
    (a = [] ∧ bytes.a = fullAlpha ∨ String.utf8Len a = width ∧ u8FromStrRadix a = .ok bytes.a)

theorem components_eq_ok {value formats alphaFormat : String} {hex : List Char} {width : Nat}
    {fullAlpha : UInt8} {bytes : RgbaBytes} (positive : 0 < width)
    (size : String.utf8Len hex = 3 * width ∨ String.utf8Len hex = 4 * width) :
    components value hex width formats alphaFormat fullAlpha = .ok bytes ↔
      Cut hex width fullAlpha bytes := by
  constructor
  · intro reads
    rcases bind_eq_ok.1 reads with ⟨red, readsR, reads⟩
    rcases bind_eq_ok.1 reads with ⟨green, readsG, reads⟩
    rcases bind_eq_ok.1 reads with ⟨blue, readsB, reads⟩
    rcases bind_eq_ok.1 reads with ⟨alpha, readsA, isBytes⟩
    rcases Except.ok.inj isBytes with rfl
    have atStart : String.utf8Len [] = 0 := rfl
    rcases (component_append atStart).mp readsR with ⟨r, rest, rfl, sizeR, isR⟩
    rw [Nat.sub_zero] at sizeR
    rcases (component_append sizeR).mp readsG with ⟨g, rest, rfl, sizeG, isG⟩
    have widthG : String.utf8Len g = width := by omega
    have sizeRG : String.utf8Len (r ++ g) = 2 * width := by
      rw [String.utf8Len_append, sizeR, widthG, Nat.two_mul]
    rw [← List.append_assoc] at readsB readsA size
    rcases (component_append sizeRG).mp readsB with ⟨b, rest, rfl, sizeB, isB⟩
    have widthB : String.utf8Len b = width := by omega
    have sizeRGB : String.utf8Len (r ++ g ++ b) = 3 * width := by
      rw [String.utf8Len_append, sizeRG, widthB, Nat.succ_mul 2]
    rw [← List.append_assoc] at readsA size
    rw [String.utf8Len_append, sizeRGB] at size
    refine ⟨r, g, b, rest, rfl, sizeR, isR, widthG, isG, widthB, isB, ?_⟩
    by_cases hasAlpha : String.utf8Len (r ++ g ++ b ++ rest) = 4 * width
    · rw [alphaComponent, if_pos hasAlpha] at readsA
      rcases (component_append sizeRGB).mp readsA with ⟨a, others, rfl, sizeA, isA⟩
      have noOthers : String.utf8Len others = 0 := by
        rw [String.utf8Len_append] at size
        omega
      rw [String.utf8Len_eq_zero.mp noOthers, List.append_nil]
      exact .inr ⟨by omega, isA⟩
    · rw [alphaComponent, if_neg hasAlpha] at readsA
      rw [String.utf8Len_append, sizeRGB] at hasAlpha
      left
      exact ⟨String.utf8Len_eq_zero.mp (by omega), (Except.ok.inj readsA).symm⟩
  · rintro ⟨r, g, b, a, rfl, sizeR, isR, sizeG, isG, sizeB, isB, alpha⟩
    have atStart : String.utf8Len [] = 0 := rfl
    have sizeRG : String.utf8Len (r ++ g) = 2 * width := by
      rw [String.utf8Len_append, sizeR, sizeG, Nat.two_mul]
    have sizeRGB : String.utf8Len (r ++ g ++ b) = 3 * width := by
      rw [String.utf8Len_append, sizeRG, sizeB, Nat.succ_mul 2]
    have readsR : component value (r ++ (g ++ (b ++ a))) 0 width "r" formats = .ok bytes.r :=
      (component_append atStart).mpr ⟨r, g ++ (b ++ a), rfl, sizeR, isR⟩
    have readsG : component value (r ++ (g ++ (b ++ a))) width (2 * width) "g" formats =
        .ok bytes.g :=
      (component_append sizeR).mpr ⟨g, b ++ a, rfl, by omega, isG⟩
    have readsB : component value (r ++ (g ++ (b ++ a))) (2 * width) (3 * width) "b" formats =
        .ok bytes.b := by
      rw [← List.append_assoc]
      exact (component_append sizeRG).mpr ⟨b, a, rfl, by omega, isB⟩
    have readsA : alphaComponent value (r ++ (g ++ (b ++ a))) width alphaFormat fullAlpha =
        .ok bytes.a := by
      rw [← List.append_assoc, ← List.append_assoc]
      rw [alphaComponent, String.utf8Len_append, sizeRGB]
      rcases alpha with ⟨rfl, isFull⟩ | ⟨sizeA, isA⟩
      · rw [if_neg (by simp; omega), isFull]
      · rw [if_pos (by omega)]
        exact (component_append sizeRGB).mpr ⟨a, [], (List.append_nil a).symm, by omega, isA⟩
    rw [components, bind_eq_ok]
    refine ⟨bytes.r, readsR, bind_eq_ok.2 ⟨bytes.g, readsG, bind_eq_ok.2 ⟨bytes.b, readsB,
      bind_eq_ok.2 ⟨bytes.a, readsA, rfl⟩⟩⟩⟩

theorem Cut.size {hex : List Char} {width : Nat} {fullAlpha : UInt8} {bytes : RgbaBytes}
    (cut : Cut hex width fullAlpha bytes) :
    String.utf8Len hex = 3 * width ∨ String.utf8Len hex = 4 * width := by
  rcases cut with ⟨r, g, b, a, rfl, sizeR, -, sizeG, -, sizeB, -, alpha⟩
  simp only [String.utf8Len_append, sizeR, sizeG, sizeB]
  rcases alpha with ⟨rfl, -⟩ | ⟨sizeA, -⟩
  · left
    rw [String.utf8Len_nil]
    omega
  · right
    omega

/-- A text is read if its components are. -/
theorem parseBytes_eq_ok {value : String} {bytes : RgbaBytes} :
    parseBytes value = .ok bytes ↔
      ∃ hex, trim value.toList = '#' :: hex ∧
        ((∃ digits, Cut hex 1 0xf digits ∧ bytes = duplicateBytes digits) ∨
          Cut hex 2 0xff bytes) := by
  constructor
  · intro reads
    rw [parseBytes] at reads
    split at reads
    next hex isHex =>
      refine ⟨hex, splitOnce_eq_some_nil.1 isHex, ?_⟩
      by_cases short : String.utf8Len hex = 3 ∨ String.utf8Len hex = 4
      · rw [if_pos short] at reads
        left
        cases found : components value hex 1 "#rgb/#rgba" "#rgba" 0xf with
        | error =>
            rw [found] at reads
            cases reads
        | ok digits =>
            rw [found] at reads
            exact ⟨digits, (components_eq_ok Nat.one_pos short).mp found,
              (Except.ok.inj reads).symm⟩
      · rw [if_neg short] at reads
        by_cases long : String.utf8Len hex = 6 ∨ String.utf8Len hex = 8
        · rw [if_pos long] at reads
          right
          exact (components_eq_ok Nat.two_pos long).mp reads
        · rw [if_neg long] at reads
          cases reads
    next => cases reads
  · rintro ⟨hex, isHex, parts⟩
    rw [parseBytes, splitOnce_eq_some_nil.2 isHex]
    rcases parts with ⟨digits, cut, rfl⟩ | cut
    · have short := cut.size
      simp only
      rw [if_pos short, (components_eq_ok Nat.one_pos short).mpr cut]
      rfl
    · have long := cut.size
      simp only
      rw [if_neg (by omega), if_pos long]
      exact (components_eq_ok Nat.two_pos long).mpr cut

end Rgba

/-! ## Digits and signs -/

theorem isHexDigit_iff {c : Char} : isHexDigit c = true ↔ ∃ value, hexValue c = some value :=
  Option.isSome_iff_exists

theorem duplicate_digit : ∀ value < 16,
    Rgba.duplicate (UInt8.ofNat value) = UInt8.ofNat (value * 16 + value) := by
  decide

/-- A digit for a component is doubled. -/
theorem formatHex_duplicate {c : Char} {byte : UInt8} (reads : u8FromStrRadix [c] = .ok byte) :
    isHexDigit c = true ∧ formatHex (Rgba.duplicate byte) = [c.toLower, c.toLower] := by
  rcases u8FromStrRadix_singleton.1 reads with ⟨value, isValue, rfl⟩
  rcases digitChar_of_hexValue isValue with ⟨small, isLower, -⟩
  refine ⟨isHexDigit_iff.2 ⟨value, isValue⟩, ?_⟩
  rw [duplicate_digit value small, formatHex_ofNat (by omega), ← isLower]
  have high : (value * 16 + value) / 16 = value := by omega
  have low : (value * 16 + value) % 16 = value := by omega
  rw [high, low]

/-- Two digits for a component are written in lower case. -/
theorem formatHex_pair {first second : Char} {byte : UInt8}
    (reads : u8FromStrRadix [first, second] = .ok byte) :
    isHexDigit second = true ∧
      (first = '+' ∨
        isHexDigit first = true ∧ formatHex byte = [first.toLower, second.toLower]) := by
  rcases u8FromStrRadix_pair.1 reads with ⟨low, isLow, signed⟩
  refine ⟨isHexDigit_iff.2 ⟨low, isLow⟩, ?_⟩
  rcases signed with ⟨isPlus, -⟩ | ⟨high, isHigh, rfl⟩
  · exact .inl isPlus
  · right
    rcases digitChar_of_hexValue isLow with ⟨smallLow, isLowerLow, -⟩
    rcases digitChar_of_hexValue isHigh with ⟨smallHigh, isLowerHigh, -⟩
    refine ⟨isHexDigit_iff.2 ⟨high, isHigh⟩, ?_⟩
    rw [formatHex_ofNat (by omega), ← isLowerLow, ← isLowerHigh]
    have isFirst : (high * 16 + low) / 16 = high := by omega
    have isSecond : (high * 16 + low) % 16 = low := by omega
    rw [isFirst, isSecond]

theorem exists_u8FromStrRadix_singleton {c : Char} (isDigit : isHexDigit c = true) :
    ∃ byte, u8FromStrRadix [c] = .ok byte := by
  rcases isHexDigit_iff.1 isDigit with ⟨value, isValue⟩
  exact ⟨UInt8.ofNat value, u8FromStrRadix_singleton.2 ⟨value, isValue, rfl⟩⟩

theorem exists_u8FromStrRadix_pair {first second : Char}
    (isFirst : first = '+' ∨ isHexDigit first = true) (isSecond : isHexDigit second = true) :
    ∃ byte, u8FromStrRadix [first, second] = .ok byte := by
  rcases isHexDigit_iff.1 isSecond with ⟨low, isLow⟩
  rcases isFirst with isPlus | isFirst
  · exact ⟨UInt8.ofNat low, u8FromStrRadix_pair.2 ⟨low, isLow, .inl ⟨isPlus, rfl⟩⟩⟩
  · rcases isHexDigit_iff.1 isFirst with ⟨high, isHigh⟩
    exact ⟨UInt8.ofNat (high * 16 + low),
      u8FromStrRadix_pair.2 ⟨low, isLow, .inr ⟨high, isHigh, rfl⟩⟩⟩

namespace Rgba

theorem formatHex_fullDigit : formatHex (duplicate 0xf) = ['f', 'f'] := by
  decide

theorem formatHex_full : formatHex 0xff = ['f', 'f'] := by
  decide

/-- Text with one digit for each component is in the grammar, and its digits are doubled. -/
theorem Cut.short {hex : List Char} {digits : RgbaBytes} (cut : Cut hex 1 0xf digits) :
    hex.all isHexDigit = true ∧ (hex.length = 3 ∨ hex.length = 4) ∧
      formatBytes (duplicateBytes digits) = String.ofList ('#' :: eightDigits hex) := by
  rcases cut with ⟨r, g, b, a, rfl, sizeR, readsR, sizeG, readsG, sizeB, readsB, alpha⟩
  rcases eq_singleton_of_utf8Len sizeR with ⟨r, rfl⟩
  rcases eq_singleton_of_utf8Len sizeG with ⟨g, rfl⟩
  rcases eq_singleton_of_utf8Len sizeB with ⟨b, rfl⟩
  rcases formatHex_duplicate readsR with ⟨digitR, writtenR⟩
  rcases formatHex_duplicate readsG with ⟨digitG, writtenG⟩
  rcases formatHex_duplicate readsB with ⟨digitB, writtenB⟩
  rcases alpha with ⟨rfl, isFull⟩ | ⟨sizeA, readsA⟩
  · refine ⟨by simp [digitR, digitG, digitB], .inl rfl, ?_⟩
    simp only [formatBytes, duplicateBytes, writtenR, writtenG, writtenB, isFull,
      formatHex_fullDigit]
    rfl
  · rcases eq_singleton_of_utf8Len sizeA with ⟨a, rfl⟩
    rcases formatHex_duplicate readsA with ⟨digitA, writtenA⟩
    refine ⟨by simp [digitR, digitG, digitB, digitA], .inr rfl, ?_⟩
    simp only [formatBytes, duplicateBytes, writtenR, writtenG, writtenB, writtenA]
    rfl

/-- Text with two characters for each component has digits or a sign and a digit for each,
and without a sign it is in the grammar. -/
theorem Cut.long {hex : List Char} {bytes : RgbaBytes} (cut : Cut hex 2 0xff bytes) :
    signedPairs hex = true ∧ (hex.length = 6 ∨ hex.length = 8) ∧
      ('+' ∉ hex → hex.all isHexDigit = true ∧
        formatBytes bytes = String.ofList ('#' :: eightDigits hex)) := by
  rcases cut with ⟨r, g, b, a, rfl, sizeR, readsR, sizeG, readsG, sizeB, readsB, alpha⟩
  rcases eq_pair_of_utf8Len sizeR readsR with ⟨r₁, r₂, rfl⟩
  rcases eq_pair_of_utf8Len sizeG readsG with ⟨g₁, g₂, rfl⟩
  rcases eq_pair_of_utf8Len sizeB readsB with ⟨b₁, b₂, rfl⟩
  rcases formatHex_pair readsR with ⟨digitR, signR⟩
  rcases formatHex_pair readsG with ⟨digitG, signG⟩
  rcases formatHex_pair readsB with ⟨digitB, signB⟩
  have pairR := signR.imp_right And.left
  have pairG := signG.imp_right And.left
  have pairB := signB.imp_right And.left
  rcases alpha with ⟨rfl, isFull⟩ | ⟨sizeA, readsA⟩
  · refine ⟨by simp [signedPairs, digitR, digitG, digitB, pairR, pairG, pairB], .inl rfl, ?_⟩
    intro unsigned
    simp only [List.cons_append, List.nil_append, List.mem_cons, not_or] at unsigned
    rcases signR.resolve_left (Ne.symm unsigned.1) with ⟨firstR, writtenR⟩
    rcases signG.resolve_left (Ne.symm unsigned.2.2.1) with ⟨firstG, writtenG⟩
    rcases signB.resolve_left (Ne.symm unsigned.2.2.2.2.1) with ⟨firstB, writtenB⟩
    refine ⟨by simp [digitR, digitG, digitB, firstR, firstG, firstB], ?_⟩
    simp only [formatBytes, writtenR, writtenG, writtenB, isFull, formatHex_full]
    rfl
  · rcases eq_pair_of_utf8Len sizeA readsA with ⟨a₁, a₂, rfl⟩
    rcases formatHex_pair readsA with ⟨digitA, signA⟩
    have pairA := signA.imp_right And.left
    refine ⟨by simp [signedPairs, digitR, digitG, digitB, digitA, pairR, pairG, pairB, pairA],
      .inr rfl, ?_⟩
    intro unsigned
    simp only [List.cons_append, List.nil_append, List.mem_cons, not_or] at unsigned
    rcases signR.resolve_left (Ne.symm unsigned.1) with ⟨firstR, writtenR⟩
    rcases signG.resolve_left (Ne.symm unsigned.2.2.1) with ⟨firstG, writtenG⟩
    rcases signB.resolve_left (Ne.symm unsigned.2.2.2.2.1) with ⟨firstB, writtenB⟩
    rcases signA.resolve_left (Ne.symm unsigned.2.2.2.2.2.2.1) with ⟨firstA, writtenA⟩
    refine ⟨by simp [digitR, digitG, digitB, digitA, firstR, firstG, firstB, firstA], ?_⟩
    simp only [formatBytes, writtenR, writtenG, writtenB, writtenA]
    rfl

theorem utf8Size_of_isHexDigit {c : Char} (isDigit : isHexDigit c = true) : c.utf8Size = 1 := by
  rcases isHexDigit_iff.1 isDigit with ⟨value, isValue⟩
  exact (digitChar_of_hexValue isValue).2.2

theorem signedPairs_of_digits {hex : List Char} (digits : hex.all isHexDigit = true)
    (even : 2 ∣ hex.length) : signedPairs hex = true := by
  induction hex using signedPairs.induct with
  | case1 => rfl
  | case2 first second rest ih =>
      simp only [List.all_cons, Bool.and_eq_true] at digits
      simp only [List.length_cons] at even
      simp [signedPairs, digits.1, digits.2.1, ih digits.2.2 (by omega)]
  | case3 hex notNil notPairs =>
      cases hex with
      | nil => exact absurd rfl notNil
      | cons first hex =>
          cases hex with
          | nil => simp at even
          | cons second hex => exact absurd rfl (notPairs first second hex)

/-- The first component can be read off, and leaves text of the same kind. -/
def ReadsFirst (good : List Char → Prop) (width : Nat) : Prop :=
  ∀ hex others, good hex → hex.length = others + width →
    ∃ part rest byte, hex = part ++ rest ∧ String.utf8Len part = width ∧
      u8FromStrRadix part = .ok byte ∧ good rest ∧ rest.length = others

theorem readsFirst_digit : ReadsFirst (fun hex => hex.all isHexDigit = true) 1 := by
  intro hex others digits size
  cases hex with
  | nil => simp at size
  | cons c hex =>
      rw [List.all_cons, Bool.and_eq_true] at digits
      rcases exists_u8FromStrRadix_singleton digits.1 with ⟨byte, reads⟩
      refine ⟨[c], hex, byte, rfl, ?_, reads, digits.2, Nat.succ.inj size⟩
      simp [utf8Size_of_isHexDigit digits.1]

theorem readsFirst_pair : ReadsFirst (fun hex => signedPairs hex = true) 2 := by
  intro hex others pairs size
  cases hex with
  | nil => simp at size
  | cons first hex =>
      cases hex with
      | nil => simp at size
      | cons second hex =>
          simp only [signedPairs, Bool.and_eq_true, Bool.or_eq_true, decide_eq_true_eq] at pairs
          rcases pairs with ⟨⟨isFirst, isSecond⟩, pairs⟩
          rcases exists_u8FromStrRadix_pair isFirst isSecond with ⟨byte, reads⟩
          have oneByte : first.utf8Size = 1 := by
            rcases isFirst with rfl | isFirst
            · rfl
            · exact utf8Size_of_isHexDigit isFirst
          refine ⟨[first, second], hex, byte, rfl, ?_, reads, pairs, ?_⟩
          · simp [oneByte, utf8Size_of_isHexDigit isSecond]
          · exact Nat.succ.inj (Nat.succ.inj size)

theorem exists_cut {good : List Char → Prop} {width : Nat} (first : ReadsFirst good width)
    {hex : List Char} (isGood : good hex) (fullAlpha : UInt8)
    (size : hex.length = 3 * width ∨ hex.length = 4 * width) :
    ∃ bytes, Cut hex width fullAlpha bytes := by
  rcases first hex (hex.length - width) isGood (by omega) with
    ⟨r, hexG, byteR, isHex, sizeR, readsR, goodG, lengthG⟩
  rcases first hexG (hexG.length - width) goodG (by omega) with
    ⟨g, hexB, byteG, isHexG, sizeG, readsG, goodB, lengthB⟩
  rcases first hexB (hexB.length - width) goodB (by omega) with
    ⟨b, hexA, byteB, isHexB, sizeB, readsB, goodA, lengthA⟩
  rcases size with three | four
  · have noAlpha : hexA = [] := List.length_eq_zero_iff.mp (by omega)
    refine ⟨⟨byteR, byteG, byteB, fullAlpha⟩, r, g, b, [], ?_, sizeR, readsR, sizeG, readsG,
      sizeB, readsB, .inl ⟨rfl, rfl⟩⟩
    rw [isHex, isHexG, isHexB, noAlpha]
  · rcases first hexA 0 goodA (by omega) with ⟨a, rest, byteA, isHexA, sizeA, readsA, -, none⟩
    refine ⟨⟨byteR, byteG, byteB, byteA⟩, r, g, b, a, ?_, sizeR, readsR, sizeG, readsG,
      sizeB, readsB, .inr ⟨sizeA, readsA⟩⟩
    rw [isHex, isHexG, isHexB, isHexA, List.length_eq_zero_iff.mp none, List.append_nil]

/-- The texts that are read. -/
theorem exists_parseBytes_iff (value : String) :
    (∃ bytes, parseBytes value = .ok bytes) ↔
      IsColor (trim value.toList) ∨ IsSigned (trim value.toList) := by
  constructor
  · rintro ⟨bytes, reads⟩
    rcases parseBytes_eq_ok.1 reads with ⟨hex, isHex, ⟨digits, cut, -⟩ | cut⟩
    · rcases cut.short with ⟨areDigits, length, -⟩
      exact .inl ⟨hex, isHex, areDigits, by omega⟩
    · rcases cut.long with ⟨pairs, length, unsigned⟩
      by_cases hasSign : '+' ∈ hex
      · exact .inr ⟨hex, isHex, pairs, hasSign, length⟩
      · exact .inl ⟨hex, isHex, (unsigned hasSign).1, by omega⟩
  · have ofPairs : ∀ hex, trim value.toList = '#' :: hex → signedPairs hex = true →
        hex.length = 6 ∨ hex.length = 8 → ∃ bytes, parseBytes value = .ok bytes := by
      intro hex isHex pairs length
      rcases exists_cut readsFirst_pair pairs 0xff length with ⟨bytes, cut⟩
      exact ⟨bytes, parseBytes_eq_ok.2 ⟨hex, isHex, .inr cut⟩⟩
    rintro (⟨hex, isHex, digits, length⟩ | ⟨hex, isHex, pairs, -, length⟩)
    · by_cases short : hex.length = 3 ∨ hex.length = 4
      · rcases exists_cut readsFirst_digit digits 0xf short with ⟨bytes, cut⟩
        exact ⟨duplicateBytes bytes, parseBytes_eq_ok.2 ⟨hex, isHex, .inl ⟨bytes, cut, rfl⟩⟩⟩
      · exact ofPairs hex isHex (signedPairs_of_digits digits (by omega)) (by omega)
    · exact ofPairs hex isHex pairs length

example : parseBytes " #f09 " = .ok ⟨0xff, 0x00, 0x99, 0xff⟩ := by
  decide +kernel

theorem not_isColor_of_isSigned {text : List Char} (signed : IsSigned text) : ¬ IsColor text := by
  rintro ⟨digits, isDigits, areDigits, -⟩
  rcases signed with ⟨hex, isHex, -, hasSign, -⟩
  rcases List.cons.inj (isHex.symm.trans isDigits) with ⟨-, rfl⟩
  have isDigit := List.all_eq_true.mp areDigits '+' hasSign
  exact absurd isDigit (by decide)

/-- What is read of a text without signs is written with its eight digits. -/
theorem formatBytes_of_parseBytes {value : String} {bytes : RgbaBytes} {hex : List Char}
    (reads : parseBytes value = .ok bytes) (isHex : trim value.toList = '#' :: hex)
    (unsigned : ¬ IsSigned (trim value.toList)) :
    formatBytes bytes = String.ofList ('#' :: eightDigits hex) := by
  rcases parseBytes_eq_ok.1 reads with ⟨other, isOther, parts⟩
  rcases List.cons.inj (isHex.symm.trans isOther) with ⟨-, rfl⟩
  rcases parts with ⟨digits, cut, rfl⟩ | cut
  · exact cut.short.2.2
  · rcases cut.long with ⟨pairs, length, written⟩
    by_cases hasSign : '+' ∈ hex
    · exact absurd ⟨hex, isHex, pairs, hasSign, length⟩ unsigned
    · exact (written hasSign).2

/-! ## Writing -/

theorem u8FromStrRadix_formatHex (byte : UInt8) : u8FromStrRadix (formatHex byte) = .ok byte := by
  have isByte := byte.toNat_lt
  apply u8FromStrRadix_pair.2
  refine ⟨byte.toNat % 16, hexValue_digitChar _ (by omega), .inr ⟨byte.toNat / 16,
    hexValue_digitChar _ (by omega), ?_⟩⟩
  rw [Nat.div_add_mod' byte.toNat 16, UInt8.ofNat_toNat]

theorem utf8Len_formatHex (byte : UInt8) : String.utf8Len (formatHex byte) = 2 := by
  have isByte := byte.toNat_lt
  have high := hexValue_digitChar (byte.toNat / 16) (by omega)
  have low := hexValue_digitChar (byte.toNat % 16) (by omega)
  simp [formatHex, (digitChar_of_hexValue high).2.2, (digitChar_of_hexValue low).2.2]

theorem isWhitespace_digitChar :
    ∀ value < 16, isWhitespace (Nat.digitChar value) = false := by
  decide

/-- Text between characters that are not whitespace stays. -/
theorem trim_eq_self {first last : Char} (middle : List Char)
    (isFirst : isWhitespace first = false) (isLast : isWhitespace last = false) :
    trim (first :: (middle ++ [last])) = first :: (middle ++ [last]) := by
  rw [trim, List.dropWhile_cons_of_neg (by simp [isFirst]), ← List.cons_append,
    List.reverse_append, List.reverse_singleton, List.singleton_append,
    List.dropWhile_cons_of_neg (by simp [isLast]), ← List.singleton_append,
    List.reverse_append, List.reverse_reverse, List.reverse_singleton]

theorem trim_formatBytes (bytes : RgbaBytes) :
    trim (formatBytes bytes).toList =
      '#' :: (formatHex bytes.r ++ (formatHex bytes.g ++
        (formatHex bytes.b ++ formatHex bytes.a))) := by
  have isLast := isWhitespace_digitChar (bytes.a.toNat % 16) (Nat.mod_lt _ (by decide))
  have trimmed := trim_eq_self (formatHex bytes.r ++ (formatHex bytes.g ++ (formatHex bytes.b ++
    [Nat.digitChar (bytes.a.toNat / 16)]))) (by decide : isWhitespace '#' = false) isLast
  rw [formatBytes, String.toList_ofList]
  simp only [List.append_assoc, List.singleton_append] at trimmed
  exact trimmed

/-- The eight digits are read back. -/
theorem parseBytes_formatBytes (bytes : RgbaBytes) :
    parseBytes (formatBytes bytes) = .ok bytes := by
  apply parseBytes_eq_ok.2
  refine ⟨formatHex bytes.r ++ (formatHex bytes.g ++ (formatHex bytes.b ++ formatHex bytes.a)),
    ?_, .inr ⟨_, _, _, _, rfl, utf8Len_formatHex _, u8FromStrRadix_formatHex _,
      utf8Len_formatHex _, u8FromStrRadix_formatHex _, utf8Len_formatHex _,
      u8FromStrRadix_formatHex _, .inr ⟨utf8Len_formatHex _, u8FromStrRadix_formatHex _⟩⟩⟩
  exact trim_formatBytes bytes

variable {K : Type} [Field K] [LinearOrder K] [IsStrictOrderedRing K] [FloorRing K]

/-- A component that comes from a byte is written as that byte. -/
theorem toByte_ofByte (byte : UInt8) : toByte (ofByte byte : K) = byte := by
  have isByte := byte.toNat_lt
  have full : ((255 : ℕ) : K) ≠ 0 := Nat.cast_ne_zero.mpr (by decide)
  have half : ⌊(byte.toNat : K) + 1 / ((2 : ℕ) : K)⌋ = byte.toNat := by
    rw [Int.floor_natCast_add]
    have noHalf : ⌊1 / ((2 : ℕ) : K)⌋ = 0 := by
      apply Int.floor_eq_zero_iff.mpr
      constructor
      · positivity
      · rw [div_lt_one (by positivity)]
        exact_mod_cast Nat.one_lt_two
    rw [noHalf, add_zero]
  rw [toByte, ofByte, div_mul_cancel₀ _ full, floatRound, if_pos (Nat.cast_nonneg _), half,
    Int.toNat_natCast, Nat.min_eq_right (by omega), UInt8.ofNat_toNat]

theorem serialize_ofBytes (bytes : RgbaBytes) :
    serialize (ofBytes bytes : Rgba K) = formatBytes bytes := by
  simp only [serialize, ofBytes, toByte_ofByte]

omit [LinearOrder K] [IsStrictOrderedRing K] [FloorRing K] in
theorem tryFrom_eq_ok {value : String} {rgba : Rgba K} :
    tryFrom value = .ok rgba ↔ ∃ bytes, parseBytes value = .ok bytes ∧ ofBytes bytes = rgba := by
  rw [tryFrom]
  cases parseBytes value with
  | error => simp [Except.map]
  | ok bytes => simp [Except.map]

/-- The colour parser accepts its grammar, and what it accepts is written with eight digits
and read back, if and only if no first digit of a component is a sign. -/
theorem parsesGrammar_iff (value : String) :
    ParsesGrammar K value ↔ ¬ IsSigned (trim value.toList) := by
  have accepted : (∃ rgba : Rgba K, tryFrom value = .ok rgba) ↔
      IsColor (trim value.toList) ∨ IsSigned (trim value.toList) := by
    rw [← exists_parseBytes_iff]
    constructor
    · rintro ⟨rgba, reads⟩
      rcases tryFrom_eq_ok.1 reads with ⟨bytes, reads, -⟩
      exact ⟨bytes, reads⟩
    · rintro ⟨bytes, reads⟩
      exact ⟨ofBytes bytes, tryFrom_eq_ok.2 ⟨bytes, reads, rfl⟩⟩
  constructor
  · rintro ⟨grammar, -⟩ signed
    exact not_isColor_of_isSigned signed (grammar.mp (accepted.mpr (.inr signed)))
  · intro unsigned
    refine ⟨accepted.trans (or_iff_left unsigned), ?_⟩
    intro rgba hex reads isHex
    rcases tryFrom_eq_ok.1 reads with ⟨bytes, parsed, rfl⟩
    rw [serialize_ofBytes]
    refine ⟨formatBytes_of_parseBytes parsed isHex unsigned, ?_⟩
    exact tryFrom_eq_ok.2 ⟨bytes, parseBytes_formatBytes bytes, rfl⟩

/-- Digits alone are read by the grammar. -/
theorem parsesGrammar_iff_digits : ParsesGrammar ℚ "#ff8000" := by
  apply (parsesGrammar_iff "#ff8000").mpr
  rintro ⟨digits, isDigits, -, sign, -⟩
  have same : digits = "ff8000".toList := by
    have trimmed : trim "#ff8000".toList = '#' :: "ff8000".toList := by decide
    exact (List.cons.inj (isDigits.symm.trans trimmed)).2
  rw [same] at sign
  exact absurd sign (by decide)

/-- `#+f+f+f` is read as `#0f0f0f`. -/
theorem not_parsesGrammar : ¬ ∀ value, ParsesGrammar ℚ value := by
  intro grammar
  have signed : IsSigned (trim "#+f+f+f".toList) :=
    ⟨"+f+f+f".toList, by decide, by decide, by decide, by decide⟩
  rcases (exists_parseBytes_iff "#+f+f+f").mpr (.inr signed) with ⟨bytes, reads⟩
  have isColor := (grammar "#+f+f+f").1.mp ⟨ofBytes bytes, tryFrom_eq_ok.2 ⟨bytes, reads, rfl⟩⟩
  exact not_isColor_of_isSigned signed isColor

end Rgba

end Gpui
