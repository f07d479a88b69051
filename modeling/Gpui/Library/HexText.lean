import Mathlib

/-!
# Text by bytes and hexadecimal digits

The part of a text between two byte offsets is there if both are between characters.  A byte
is written with two lower-case hexadecimal digits, and the digits of either case are read.
-/

namespace Gpui.Library

/-! ## Byte offsets -/

/-- The two parts of a text at a byte offset that is between characters. -/
def splitAtByte : List Char → Nat → Option (List Char × List Char)
  | text, 0 => some ([], text)
  | [], _ + 1 => none
  | c :: text, offset + 1 =>
      if c.utf8Size ≤ offset + 1 then
        (splitAtByte text (offset + 1 - c.utf8Size)).map fun parts => (c :: parts.1, parts.2)
      else none

/-- The characters between two byte offsets. -/
def getBytes (text : List Char) (start stop : Nat) : Option (List Char) :=
  (splitAtByte text start).bind fun parts =>
    (splitAtByte parts.2 (stop - start)).map Prod.fst

theorem splitAtByte_eq_some_iff {text front rest : List Char} {offset : Nat} :
    splitAtByte text offset = some (front, rest) ↔
      text = front ++ rest ∧ String.utf8Len front = offset := by
  induction text generalizing front rest offset with
  | nil =>
      cases offset with
      | zero =>
          simp only [splitAtByte, Option.some.injEq, Prod.mk.injEq]
          constructor
          · rintro ⟨rfl, rfl⟩
            exact ⟨rfl, rfl⟩
          · rintro ⟨isNil, -⟩
            rcases List.nil_eq_append_iff.mp isNil with ⟨rfl, rfl⟩
            exact ⟨rfl, rfl⟩
      | succ offset =>
          simp only [splitAtByte, reduceCtorEq, false_iff]
          rintro ⟨isNil, size⟩
          rcases List.nil_eq_append_iff.mp isNil with ⟨rfl, rfl⟩
          simp at size
  | cons c text ih =>
      cases offset with
      | zero =>
          simp only [splitAtByte, Option.some.injEq, Prod.mk.injEq]
          constructor
          · rintro ⟨rfl, rfl⟩
            exact ⟨rfl, rfl⟩
          · rintro ⟨isText, size⟩
            rcases String.utf8Len_eq_zero.mp size with rfl
            exact ⟨rfl, isText⟩
      | succ offset =>
          have positive := c.utf8Size_pos
          simp only [splitAtByte]
          constructor
          · intro split
            by_cases fits : c.utf8Size ≤ offset + 1
            · rw [if_pos fits] at split
              rcases Option.map_eq_some_iff.mp split with ⟨⟨later, others⟩, isSplit, isParts⟩
              rcases Prod.mk.inj isParts with ⟨rfl, rfl⟩
              rcases ih.mp isSplit with ⟨rfl, size⟩
              refine ⟨rfl, ?_⟩
              rw [String.utf8Len_cons, size, Nat.sub_add_cancel fits]
            · rw [if_neg fits] at split
              cases split
          · rintro ⟨isText, size⟩
            cases front with
            | nil => simp at size
            | cons first front =>
                rcases List.cons.inj isText with ⟨rfl, isRest⟩
                rw [String.utf8Len_cons] at size
                have fits : c.utf8Size ≤ offset + 1 := by omega
                have isSplit : splitAtByte text (offset + 1 - c.utf8Size) = some (front, rest) :=
                  ih.mpr ⟨isRest, by omega⟩
                rw [if_pos fits, isSplit]
                rfl

/-- Behind a part of the text. -/
theorem getBytes_append_eq_some_iff {front text part : List Char} {start stop : Nat}
    (size : String.utf8Len front = start) :
    getBytes (front ++ text) start stop = some part ↔
      ∃ rest, text = part ++ rest ∧ String.utf8Len part = stop - start := by
  have isSplit : splitAtByte (front ++ text) start = some (front, text) :=
    splitAtByte_eq_some_iff.mpr ⟨rfl, size⟩
  rw [getBytes, isSplit, Option.bind_some, Option.map_eq_some_iff]
  constructor
  · rintro ⟨⟨first, rest⟩, split, rfl⟩
    exact ⟨rest, splitAtByte_eq_some_iff.mp split⟩
  · rintro ⟨rest, split⟩
    exact ⟨(part, rest), splitAtByte_eq_some_iff.mpr split, rfl⟩

/-! ## Hexadecimal digits -/

/-- `char::to_digit(16)`. -/
def hexValue (c : Char) : Option Nat :=
  if '0' ≤ c ∧ c ≤ '9' then some (c.toNat - '0'.toNat)
  else if 'a' ≤ c ∧ c ≤ 'f' then some (c.toNat - 'a'.toNat + 10)
  else if 'A' ≤ c ∧ c ≤ 'F' then some (c.toNat - 'A'.toNat + 10)
  else none

/-- A byte with two lower-case digits. -/
def formatHex (byte : UInt8) : List Char :=
  [Nat.digitChar (byte.toNat / 16), Nat.digitChar (byte.toNat % 16)]

theorem hexValue_digitChar : ∀ value < 16, hexValue (Nat.digitChar value) = some value := by
  decide

theorem hexValue_ascii : ∀ code < 128,
    ∀ value ∈ hexValue (Char.ofNat code),
      value < 16 ∧ Nat.digitChar value = (Char.ofNat code).toLower ∧
        (Char.ofNat code).utf8Size = 1 := by
  decide

theorem lt_of_hexValue {c : Char} {value : Nat} (isValue : hexValue c = some value) :
    c.toNat < 128 := by
  by_contra isLarge
  have above : ∀ bound : Char, bound.toNat < 128 → ¬ c ≤ bound := by
    intro bound small le
    have := Char.le_def.mp le
    have : c.toNat ≤ bound.toNat := this
    omega
  rw [hexValue, if_neg, if_neg, if_neg] at isValue
  · cases isValue
  · rintro ⟨-, le⟩
    exact above 'F' (by decide) le
  · rintro ⟨-, le⟩
    exact above 'f' (by decide) le
  · rintro ⟨-, le⟩
    exact above '9' (by decide) le

/-- A digit is written in lower case. -/
theorem digitChar_of_hexValue {c : Char} {value : Nat} (isValue : hexValue c = some value) :
    value < 16 ∧ Nat.digitChar value = c.toLower ∧ c.utf8Size = 1 := by
  have ascii := hexValue_ascii c.toNat (lt_of_hexValue isValue) value
  rw [Char.ofNat_toNat] at ascii
  exact ascii isValue

theorem formatHex_ofNat {value : Nat} (isByte : value < 256) :
    formatHex (UInt8.ofNat value) =
      [Nat.digitChar (value / 16), Nat.digitChar (value % 16)] := by
  rw [formatHex, UInt8.toNat_ofNat_of_lt' isByte]

end Gpui.Library
