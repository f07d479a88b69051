import Mathlib

/-!
# The linear order of machine words

`UInt32` carries its comparison and its maximum in the core library, but not
the lattice-style order API.  This module packages the existing operations as a
`LinearOrder`, keeping every operation definitionally the core one.  Counters of 64 bits that
do not wrap are related to the numbers they stand for.
-/

namespace Gpui.Library

instance wordLinearOrder : LinearOrder UInt32 where
  le_refl word := UInt32.le_refl word
  le_trans _ _ _ := UInt32.le_trans
  le_antisymm _ _ := UInt32.le_antisymm
  le_total := UInt32.le_total
  lt_iff_le_not_ge first second := by
    rw [UInt32.lt_iff_toNat_lt, UInt32.le_iff_toNat_le, UInt32.le_iff_toNat_le]
    omega
  toDecidableLE := inferInstance
  toDecidableEq := inferInstance
  toDecidableLT := inferInstance
  min := min
  max := max
  min_def _ _ := rfl
  max_def _ _ := rfl
  compare := compare
  compare_eq_compareOfLessAndEq _ _ := rfl

theorem word_zero_le (word : UInt32) : 0 ≤ word := by
  rw [UInt32.le_iff_toNat_le]
  exact Nat.zero_le _

@[simp]
theorem max_zero_word (word : UInt32) : max word 0 = word :=
  max_eq_left (word_zero_le word)

@[simp]
theorem zero_max_word (word : UInt32) : max 0 word = word :=
  max_eq_right (word_zero_le word)

/-- Below the last word, adding one does not wrap. -/
theorem toNat_succ_of_lt {word : UInt32} (notLast : word.toNat < 2 ^ 32 - 1) :
    (word + 1).toNat = word.toNat + 1 := by
  rw [UInt32.toNat_add]
  have one_eq : (1 : UInt32).toNat = 1 := rfl
  omega

/-! ## Words of 64 bits -/

theorem odd_iff {word : UInt64} : word &&& 1 ≠ 0 ↔ word.toNat % 2 = 1 := by
  rw [Ne, ← UInt64.toNat_inj, UInt64.toNat_and]
  simp [Nat.and_one_is_mod]

theorem toNat_add_one {word : UInt64} (bound : word.toNat + 1 < 2 ^ 64) :
    (word + 1).toNat = word.toNat + 1 := by
  rw [UInt64.toNat_add]
  simp
  omega

theorem toNat_add_two {word : UInt64} (bound : word.toNat + 2 < 2 ^ 64) :
    (word + 2).toNat = word.toNat + 2 := by
  rw [UInt64.toNat_add]
  simp
  omega

theorem toNat_sub_one {word : UInt64} (positive : 0 < word.toNat) :
    (word - 1).toNat = word.toNat - 1 :=
  UInt64.toNat_sub_of_le word 1 (UInt64.le_iff_toNat_le.mpr positive)

/-- `saturating_sub`. -/
def saturatingSub (word other : UInt64) : UInt64 :=
  if other ≤ word then word - other else 0

theorem toNat_saturatingSub {word other : UInt64} (le : other.toNat ≤ word.toNat) :
    (saturatingSub word other).toNat = word.toNat - other.toNat := by
  rw [saturatingSub, if_pos (UInt64.le_iff_toNat_le.mpr le), UInt64.toNat_sub_of_le]
  exact UInt64.le_iff_toNat_le.mpr le

theorem toNat_half (word : UInt64) : (word / 2).toNat = word.toNat / 2 := by
  rw [UInt64.toNat_div]
  rfl

/-! ## Flags in the top bit -/

def topBit : UInt64 := (1 : UInt64) <<< 63

theorem and_topBit_eq_zero_iff {word : UInt64} : word &&& topBit = 0 ↔ word.toNat < 2 ^ 63 := by
  rw [← UInt64.toNat_inj, UInt64.toNat_and]
  have bound := word.toNat_lt
  have two_pow : topBit.toNat = 2 ^ 63 := rfl
  have zero : (0 : UInt64).toNat = 0 := rfl
  rw [two_pow, zero, Nat.and_two_pow, Nat.testBit_eq_decide_div_mod_eq]
  by_cases set : word.toNat / 2 ^ 63 % 2 = 1
  · rw [decide_eq_true set, Bool.toNat_true]
    omega
  · rw [decide_eq_false set, Bool.toNat_false]
    omega

theorem toNat_or_topBit {word : UInt64} (low : word.toNat < 2 ^ 63) :
    (word ||| topBit).toNat = 2 ^ 63 + word.toNat := by
  rw [UInt64.toNat_or, Nat.or_comm]
  exact (Nat.two_pow_add_eq_or_of_lt low 1).symm

theorem toNat_and_not_topBit (word : UInt64) :
    (word &&& ~~~topBit).toNat = word.toNat % 2 ^ 63 := by
  rw [UInt64.toNat_and]
  exact Nat.and_two_pow_sub_one_eq_mod word.toNat 63

end Gpui.Library
