import Mathlib

/-!
# Values that are dealt to the set bits of a mask

A message carries a mask and one value for each set bit, from the lowest bit to the highest.
The value of a bit stands at its rank: the number of set bits below it.  For a mask of words
the rank is counted word by word.
-/

namespace Gpui.Library

variable {V : Type}

/-- The values dealt to the set positions below a bound, from the lowest on. -/
def dealt (set : Nat → Bool) (bound : Nat) (values : List V) : List (Nat × V) :=
  ((List.range bound).filter set).zip values

/-- The number of set positions below a position. -/
def rank (set : Nat → Bool) (position : Nat) : Nat :=
  (List.range position).countP set

theorem rank_add (set : Nat → Bool) (position more : Nat) :
    rank set (position + more) =
      rank set position + rank (fun offset => set (position + offset)) more := by
  rw [rank, List.range_add, List.countP_append, List.countP_map]
  rfl

theorem lookup_zip_of_notMem {key : Nat} {front back : List Nat} (fresh : key ∉ front)
    (values : List V) :
    ((front ++ key :: back).zip values).lookup key = values[front.length]? := by
  induction front generalizing values with
  | nil =>
      cases values with
      | nil => rfl
      | cons value values => simp
  | cons head front ih =>
      cases values with
      | nil => simp
      | cons value values =>
          have other : (key == head) = false := by
            rw [beq_eq_false_iff_ne]
            exact List.ne_of_not_mem_cons fresh
          simp only [List.cons_append, List.zip_cons_cons, List.lookup_cons, other]
          rw [ih (List.not_mem_of_not_mem_cons fresh), List.length_cons,
            List.getElem?_cons_succ]

/-- The value of a set position stands at its rank. -/
theorem lookup_dealt_of_set {set : Nat → Bool} {bound position : Nat} (below : position < bound)
    (isSet : set position = true) (values : List V) :
    (dealt set bound values).lookup position = values[rank set position]? := by
  have split : (List.range bound).filter set = (List.range position).filter set ++
      position :: ((List.range (bound - position - 1)).map (position + 1 + ·)).filter set := by
    have sum : bound = position + 1 + (bound - position - 1) := by omega
    nth_rewrite 1 [sum]
    rw [List.range_add, List.range_succ, List.filter_append, List.filter_append,
      List.filter_singleton, isSet, cond_true, List.append_assoc, List.singleton_append]
  have fresh : position ∉ (List.range position).filter set := by
    intro member
    exact absurd (List.mem_range.mp (List.mem_of_mem_filter member)) (lt_irrefl _)
  rw [dealt, split, lookup_zip_of_notMem fresh, rank, List.countP_eq_length_filter]

theorem lookup_dealt_of_notSet {set : Nat → Bool} {position : Nat}
    (notSet : set position = false) (bound : Nat) (values : List V) :
    (dealt set bound values).lookup position = none := by
  rw [List.lookup_eq_none_iff]
  intro entry member
  rw [bne_iff_ne]
  intro same
  have inFilter : entry.1 ∈ (List.range bound).filter set := (List.of_mem_zip member).1
  have isSet := List.of_mem_filter inFilter
  rw [← same, notSet] at isSet
  cases isSet

/-! ## Masks of words -/

/-- The bit of a mask whose words come from the lowest on. -/
def maskBit (mask : List UInt32) (position : Nat) : Bool :=
  (mask[position / 32]?).any fun word => word.toNat.testBit (position % 32)

/-- `count_ones`. -/
def countOnes (word : UInt32) : Nat :=
  rank word.toNat.testBit 32

theorem maskBit_add (mask : List UInt32) (words : Nat) {position : Nat} (small : position < 32) :
    maskBit mask (32 * words + position) =
      (mask[words]?).any fun word => word.toNat.testBit position := by
  rw [maskBit, Nat.mul_add_div (by decide), Nat.div_eq_of_lt small, Nat.mul_add_mod,
    Nat.mod_eq_of_lt small, Nat.add_zero]

/-- The rank within a word. -/
theorem rank_maskBit_word (mask : List UInt32) (words : Nat) {bits : Nat} (le : bits ≤ 32) :
    rank (fun offset => maskBit mask (32 * words + offset)) bits =
      (mask[words]?).elim 0 fun word => rank word.toNat.testBit bits := by
  have inWord : rank (fun offset => maskBit mask (32 * words + offset)) bits =
      rank (fun offset => (mask[words]?).any fun word => word.toNat.testBit offset) bits := by
    apply List.countP_congr
    intro offset member
    rw [maskBit_add mask words ((List.mem_range.mp member).trans_le le)]
  rw [inWord]
  cases mask[words]? with
  | none => exact congrFun List.countP_false _
  | some word => rfl

/-- The rank of the first bit of a word: the set bits of the words before. -/
theorem rank_maskBit_words (mask : List UInt32) (words : Nat) :
    rank (maskBit mask) (32 * words) = ((mask.take words).map countOnes).sum := by
  induction words with
  | zero => rfl
  | succ words ih =>
      rw [Nat.mul_succ, rank_add, ih, rank_maskBit_word mask words le_rfl, List.take_add_one,
        List.map_append, List.sum_append]
      cases mask[words]? with
      | none => rfl
      | some word => exact congrArg (_ + ·) (Nat.add_zero _).symm

/-! ## What a value has changed -/

variable {K : Type} [CommRing K]

/-- The differences between one value and the next, where there is a value; a value before
which there is none makes no difference. -/
def differences (scale : K) : Option K → List (Option K) → List (Option K)
  | _, [] => []
  | last, none :: values => none :: differences scale last values
  | last, some value :: values =>
      (last.map fun old => (old - value) * scale) :: differences scale (some value) values

theorem length_differences (scale : K) (last : Option K) (values : List (Option K)) :
    (differences scale last values).length = values.length := by
  induction values generalizing last with
  | nil => rfl
  | cons value values ih =>
      cases value with
      | none => exact congrArg (· + 1) (ih last)
      | some value => exact congrArg (· + 1) (ih _)

/-- How far the values have moved, from the first to the last. -/
def travelled : List K → K
  | [] => 0
  | first :: values => first - (first :: values).getLast (List.cons_ne_nil _ _)

/-- The sum of the differences that there are. -/
def total (differences : List (Option K)) : K :=
  (differences.map fun difference => difference.getD 0).sum

theorem total_cons (difference : Option K) (rest : List (Option K)) :
    total (difference :: rest) = difference.getD 0 + total rest :=
  List.sum_cons

/-- The differences telescope. -/
theorem total_differences_some (scale old : K) (values : List (Option K)) :
    total (differences scale (some old) values) =
      scale * travelled (old :: values.reduceOption) := by
  induction values generalizing old with
  | nil => simp [differences, total, travelled]
  | cons value values ih =>
      cases value with
      | none =>
          rw [differences, total_cons, ih, Option.getD_none, zero_add,
            List.reduceOption_cons_of_none]
      | some value =>
          rw [differences, total_cons, ih, List.reduceOption_cons_of_some, Option.map_some,
            Option.getD_some, travelled, travelled,
            List.getLast_cons (List.cons_ne_nil value values.reduceOption)]
          ring

theorem total_differences_none (scale : K) (values : List (Option K)) :
    total (differences scale none values) = scale * travelled values.reduceOption := by
  induction values with
  | nil => simp [differences, total, travelled]
  | cons value values ih =>
      cases value with
      | none =>
          rw [differences, total_cons, ih, Option.getD_none, zero_add,
            List.reduceOption_cons_of_none]
      | some value =>
          rw [differences, total_cons, total_differences_some, Option.map_none, Option.getD_none,
            zero_add, List.reduceOption_cons_of_some]

/-- The first value makes no difference. -/
theorem differences_first (scale : K) {silent rest : List (Option K)} {value : Option K}
    (noValue : ∀ old ∈ silent, old = none) :
    (differences scale none (silent ++ value :: rest))[silent.length]? = some none := by
  induction silent with
  | nil => cases value <;> rfl
  | cons head silent ih =>
      cases noValue head List.mem_cons_self
      rw [List.cons_append, differences, List.length_cons, List.getElem?_cons_succ]
      exact ih fun old member => noValue old (List.mem_cons_of_mem _ member)

end Gpui.Library
