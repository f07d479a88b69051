import Gpui.Keymap.Context

/-!
# Characters of the keymap's languages

Sources are lists of characters; the slices of the source always begin and end at
character boundaries.
-/

namespace Gpui

/-- `char::is_whitespace`: the property `White_Space`. -/
def isWhitespace (c : Char) : Bool :=
  (0x9 ≤ c.toNat && c.toNat ≤ 0xD) || c.toNat = 0x20 || c.toNat = 0x85 || c.toNat = 0xA0 ||
    c.toNat = 0x1680 || (0x2000 ≤ c.toNat && c.toNat ≤ 0x200A) || c.toNat = 0x2028 ||
    c.toNat = 0x2029 || c.toNat = 0x202F || c.toNat = 0x205F || c.toNat = 0x3000

/-- `char::is_alphanumeric`.  Its tables are those of the Unicode version at hand; all
versions agree on ASCII, and on whitespace being neither a letter nor a number. -/
structure Alphanumeric where
  contains : Char → Bool
  ascii : ∀ c : Char, c.toNat < 128 → contains c = c.isAlphanum
  whitespace : ∀ c : Char, isWhitespace c = true → contains c = false

/-- The smallest such table. -/
def Alphanumeric.asciiOnly : Alphanumeric where
  contains := Char.isAlphanum
  ascii _ _ := rfl
  whitespace c blank := by
    rw [Bool.eq_false_iff]
    intro alphanumeric
    simp only [isWhitespace, Char.isAlphanum, Char.isAlpha, Char.isUpper, Char.isLower,
      Char.isDigit, Bool.or_eq_true, Bool.and_eq_true, decide_eq_true_eq, ge_iff_le,
      UInt32.le_iff_toNat_le] at blank alphanumeric
    have code : c.toNat = c.val.toNat := rfl
    simp at alphanumeric
    omega

def isIdentifierChar (alphanumeric : Alphanumeric) (c : Char) : Bool :=
  alphanumeric.contains c || c = '_' || c = '-'

def isVimOperatorChar (c : Char) : Bool :=
  c = '>' || c = '<' || c = '~' || c = '"' || c = '?'

def skipWhitespace (source : List Char) : List Char :=
  source.dropWhile isWhitespace

/-! ## Classes of characters -/

theorem isIdentifierChar_ascii (alphanumeric : Alphanumeric) {c : Char} (ascii : c.toNat < 128) :
    isIdentifierChar alphanumeric c = (c.isAlphanum || c = '_' || c = '-') := by
  rw [isIdentifierChar, alphanumeric.ascii c ascii]

theorem not_isIdentifierChar_of_isWhitespace (alphanumeric : Alphanumeric) {c : Char}
    (blank : isWhitespace c = true) : isIdentifierChar alphanumeric c = false := by
  have underscore : c ≠ '_' := by
    rintro rfl
    exact absurd blank (by decide)
  have dash : c ≠ '-' := by
    rintro rfl
    exact absurd blank (by decide)
  simp [isIdentifierChar, alphanumeric.whitespace c blank, underscore, dash]

theorem isVimOperatorChar_iff {c : Char} :
    isVimOperatorChar c = true ↔ c = '>' ∨ c = '<' ∨ c = '~' ∨ c = '"' ∨ c = '?' := by
  simp [isVimOperatorChar, or_assoc]

theorem isVimOperatorChar_cases {motive : Char → Prop} {c : Char}
    (vim : isVimOperatorChar c = true) (child : motive '>') (less : motive '<')
    (tilde : motive '~') (quote : motive '"') (question : motive '?') : motive c := by
  rcases isVimOperatorChar_iff.mp vim with rfl | rfl | rfl | rfl | rfl <;> assumption

theorem not_isVimOperatorChar_of_isWhitespace {c : Char} (blank : isWhitespace c = true) :
    isVimOperatorChar c = false := by
  rw [Bool.eq_false_iff]
  intro vim
  revert blank
  exact isVimOperatorChar_cases (motive := fun c => ¬ isWhitespace c = true) vim
    (by decide) (by decide) (by decide) (by decide) (by decide)

theorem not_isIdentifierChar_of_isVimOperatorChar (alphanumeric : Alphanumeric) {c : Char}
    (vim : isVimOperatorChar c = true) : isIdentifierChar alphanumeric c = false := by
  have ascii : c.toNat < 128 ∧ (c.isAlphanum || c = '_' || c = '-') = false :=
    isVimOperatorChar_cases (motive := fun c => c.toNat < 128 ∧
      (c.isAlphanum || c = '_' || c = '-') = false) vim
      (by decide) (by decide) (by decide) (by decide) (by decide)
  rw [isIdentifierChar_ascii alphanumeric ascii.1]
  exact ascii.2

/-! ## Whitespace -/

theorem skipWhitespace_append {gap rest : List Char} (blank : ∀ c ∈ gap, isWhitespace c = true)
    (ends : ∀ c ∈ rest.head?, isWhitespace c = false) : skipWhitespace (gap ++ rest) = rest := by
  induction gap with
  | nil =>
      cases rest with
      | nil => rfl
      | cons c rest => simp [skipWhitespace, ends c rfl]
  | cons c gap ih =>
      have first : isWhitespace c = true := blank c List.mem_cons_self
      rw [List.cons_append, skipWhitespace, List.dropWhile_cons_of_pos first]
      exact ih fun other member => blank other (List.mem_cons_of_mem _ member)

theorem length_skipWhitespace_le (source : List Char) :
    (skipWhitespace source).length ≤ source.length :=
  (List.dropWhile_suffix _).length_le

end Gpui
