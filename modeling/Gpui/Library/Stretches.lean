import Mathlib

/-!
# Lists in stretches

A list whose neighbours are often equal is kept as the lengths and the values of its
stretches.  Values are appended to the last stretch or begin another one.
-/

namespace Gpui.Library

variable {α : Type}

/-- The list that stretches stand for. -/
def expandStretches (stretches : List (Nat × α)) : List α :=
  stretches.flatMap fun stretch => List.replicate stretch.1 stretch.2

theorem expandStretches_append (front back : List (Nat × α)) :
    expandStretches (front ++ back) = expandStretches front ++ expandStretches back :=
  List.flatMap_append

theorem expandStretches_singleton (stretch : Nat × α) :
    expandStretches [stretch] = List.replicate stretch.1 stretch.2 :=
  List.flatMap_singleton _ _

/-- The stretches are as long as they can be. -/
structure Stretched (stretches : List (Nat × α)) : Prop where
  positive : ∀ stretch ∈ stretches, 0 < stretch.1
  distinct : stretches.IsChain fun first second => first.2 ≠ second.2

theorem stretched_nil : Stretched ([] : List (Nat × α)) where
  positive := by
    intro stretch member
    cases member
  distinct := List.IsChain.nil

variable [DecidableEq α]

/-- Append a value some times. -/
def pushStretch (stretches : List (Nat × α)) (count : Nat) (value : α) : List (Nat × α) :=
  match stretches.getLast? with
  | none => stretches ++ [(count, value)]
  | some last =>
      if last.2 = value then stretches.dropLast ++ [(last.1 + count, value)]
      else stretches ++ [(count, value)]

theorem pushStretch_concat_same (front : List (Nat × α)) (first count : Nat) (value : α) :
    pushStretch (front ++ [(first, value)]) count value = front ++ [(first + count, value)] := by
  rw [pushStretch, List.getLast?_concat, List.dropLast_concat]
  exact if_pos rfl

theorem pushStretch_concat_other (front : List (Nat × α)) {last : Nat × α} (count : Nat)
    {value : α} (other : last.2 ≠ value) :
    pushStretch (front ++ [last]) count value = front ++ [last] ++ [(count, value)] := by
  rw [pushStretch, List.getLast?_concat]
  exact if_neg other

theorem expandStretches_push (stretches : List (Nat × α)) (count : Nat) (value : α) :
    expandStretches (pushStretch stretches count value) =
      expandStretches stretches ++ List.replicate count value := by
  rcases List.eq_nil_or_concat stretches with rfl | ⟨front, last, rfl⟩
  · exact expandStretches_singleton (count, value)
  · rw [List.concat_eq_append]
    by_cases same : last.2 = value
    · rcases last with ⟨first, other⟩
      cases same
      rw [pushStretch_concat_same, expandStretches_append, expandStretches_append,
        expandStretches_singleton, expandStretches_singleton, List.append_assoc,
        List.replicate_append_replicate]
    · rw [pushStretch_concat_other front count same, expandStretches_append,
        expandStretches_singleton]

theorem Stretched.push {stretches : List (Nat × α)} (stretched : Stretched stretches)
    {count : Nat} (positiveCount : 0 < count) (value : α) :
    Stretched (pushStretch stretches count value) := by
  rcases List.eq_nil_or_concat stretches with rfl | ⟨front, last, rfl⟩
  · constructor
    · intro stretch member
      rw [List.mem_singleton.mp member]
      exact positiveCount
    · exact List.isChain_singleton _
  · rw [List.concat_eq_append] at stretched ⊢
    rcases stretched with ⟨positive, distinct⟩
    by_cases same : last.2 = value
    · rcases last with ⟨first, other⟩
      cases same
      rw [pushStretch_concat_same]
      constructor
      · intro stretch member
        rcases List.mem_append.mp member with before | isLast
        · exact positive stretch (List.mem_append_left _ before)
        · rw [List.mem_singleton.mp isLast]
          exact Nat.add_pos_right first positiveCount
      · rw [List.isChain_append] at distinct ⊢
        refine ⟨distinct.1, List.isChain_singleton _, ?_⟩
        intro before isBefore last isLast
        rcases Option.some.inj isLast with rfl
        exact distinct.2.2 before isBefore (first, other) rfl
    · rw [pushStretch_concat_other front count same]
      constructor
      · intro stretch member
        rcases List.mem_append.mp member with before | isLast
        · exact positive stretch before
        · rw [List.mem_singleton.mp isLast]
          exact positiveCount
      · rw [List.isChain_append]
        refine ⟨distinct, List.isChain_singleton _, ?_⟩
        intro before isBefore next isNext
        rw [List.getLast?_concat] at isBefore
        rcases Option.some.inj isBefore with rfl
        rcases Option.some.inj isNext with rfl
        exact same

omit [DecidableEq α] in
/-- What the last stretch holds is last of all. -/
theorem Stretched.getLast?_expand {stretches : List (Nat × α)} (stretched : Stretched stretches) :
    (expandStretches stretches).getLast? = stretches.getLast?.map Prod.snd := by
  rcases List.eq_nil_or_concat stretches with rfl | ⟨front, last, rfl⟩
  · rfl
  · rw [List.concat_eq_append] at stretched ⊢
    have positive : 0 < last.1 :=
      stretched.positive last (List.mem_append_right _ (List.mem_singleton_self last))
    have nonempty : List.replicate last.1 last.2 ≠ [] := by
      rw [Ne, List.replicate_eq_nil_iff]
      exact positive.ne'
    rw [expandStretches_append, expandStretches_singleton, List.getLast?_concat,
      List.getLast?_append_of_ne_nil _ nonempty, List.getLast?_eq_some_getLast nonempty,
      List.getLast_replicate]
    rfl

/-- The stretches of a list. -/
def stretchesOf (list : List α) : List (Nat × α) :=
  (list.splitBy (· == ·)).filterMap fun group => group.head?.map fun value => (group.length, value)

/-- A list is what its stretches stand for. -/
theorem expandStretches_stretchesOf (list : List α) :
    expandStretches (stretchesOf list) = list := by
  have constant : ∀ groups : List (List α),
      (∀ group ∈ groups, group ≠ [] ∧ group.IsChain (· = ·)) →
        expandStretches (groups.filterMap fun group =>
          group.head?.map fun value => (group.length, value)) = groups.flatten := by
    intro groups each
    induction groups with
    | nil => rfl
    | cons group groups ih =>
        rcases each group List.mem_cons_self with ⟨nonempty, chain⟩
        rcases List.exists_cons_of_ne_nil nonempty with ⟨value, rest, rfl⟩
        have same := List.isChain_eq_iff_eq_replicate.mp chain value rfl
        have others := ih fun other member => each other (List.mem_cons_of_mem _ member)
        calc expandStretches (((value :: rest) :: groups).filterMap fun group =>
              group.head?.map fun value => (group.length, value))
            = List.replicate (value :: rest).length value ++
                expandStretches (groups.filterMap fun group =>
                  group.head?.map fun value => (group.length, value)) := by
              rfl
          _ = (value :: rest) ++ groups.flatten := by
              rw [others, ← same]
  have whole := constant (list.splitBy (· == ·)) fun group member =>
    ⟨List.ne_nil_of_mem_splitBy member,
      (List.isChain_of_mem_splitBy member).imp fun _ _ => eq_of_beq⟩
  rw [stretchesOf, whole, List.flatten_splitBy]

theorem sum_stretchesOf (list : List α) :
    ((stretchesOf list).map Prod.fst).sum = list.length := by
  have lengths : ∀ stretches : List (Nat × α),
      (stretches.map Prod.fst).sum = (expandStretches stretches).length := by
    intro stretches
    rw [expandStretches, List.length_flatMap]
    simp only [List.length_replicate]
  rw [lengths, expandStretches_stretchesOf]

/-- Stretches that are as long as they can be are the ones of the list they stand for. -/
theorem Stretched.stretchesOf_expand {stretches : List (Nat × α)}
    (stretched : Stretched stretches) : stretchesOf (expandStretches stretches) = stretches := by
  have groups : (expandStretches stretches).splitBy (· == ·) =
      stretches.map fun stretch => List.replicate stretch.1 stretch.2 := by
    rw [expandStretches, List.flatMap_def]
    apply List.splitBy_flatten
    · intro empty
      rcases List.mem_map.mp empty with ⟨stretch, member, none⟩
      rw [List.replicate_eq_nil_iff] at none
      exact (stretched.positive stretch member).ne' none
    · intro group member
      rcases List.mem_map.mp member with ⟨stretch, -, rfl⟩
      exact List.isChain_replicate_of_rel _ (beq_self_eq_true _)
    · rw [List.isChain_map]
      apply List.IsChain.imp_of_mem_imp _ stretched.distinct
      intro first second isFirst isSecond other
      have firstPositive := stretched.positive first isFirst
      have secondPositive := stretched.positive second isSecond
      refine ⟨?_, ?_, ?_⟩
      · rw [Ne, List.replicate_eq_nil_iff]
        exact firstPositive.ne'
      · rw [Ne, List.replicate_eq_nil_iff]
        exact secondPositive.ne'
      · rw [List.getLast_replicate, List.head_replicate]
        exact beq_false_of_ne other
  rw [stretchesOf, groups, List.filterMap_map]
  have each : ∀ stretch ∈ stretches,
      (fun stretch : Nat × α => (List.replicate stretch.1 stretch.2).head?.map fun value =>
        ((List.replicate stretch.1 stretch.2).length, value)) stretch = some stretch := by
    intro stretch member
    have positive := stretched.positive stretch member
    simp only [List.head?_replicate, List.length_replicate, if_neg positive.ne',
      Option.map_some]
  exact (List.filterMap_congr each).trans List.filterMap_some

end Gpui.Library
