import Mathlib

/-!
# Ordered sequences with cursors

`OrderedSequence` says what a sequence ordered by a key provides: insertion that
replaces an item of the same key, its ends, and cursors that seek to a key and then
move item by item.  The items around a cursor describe what it does.
-/

namespace Gpui.Library

variable {Item Key : Type} [LinearOrder Key]

structure OrderedSequence (key : Item → Key) where
  Tree : Type
  Cursor : Type
  new : Tree
  insertOrReplace : Item → Tree → Tree
  first : Tree → Option Item
  last : Tree → Option Item
  /-- A cursor at the first item that is not below a key. -/
  seekLeft : Tree → Key → Cursor
  item : Cursor → Option Item
  next : Cursor → Cursor
  prev : Cursor → Cursor
  items : Tree → List Item
  /-- The items before a cursor, the nearest first. -/
  passed : Cursor → List Item
  /-- The item of a cursor and those after it. -/
  remaining : Cursor → List Item
  sorted : ∀ tree, (items tree).Pairwise fun before after => key before < key after
  items_new : items new = []
  mem_insertOrReplace : ∀ {added item tree}, item ∈ items (insertOrReplace added tree) ↔
    item = added ∨ item ∈ items tree ∧ key item ≠ key added
  first_eq : ∀ tree, first tree = (items tree).head?
  last_eq : ∀ tree, last tree = (items tree).getLast?
  passed_seekLeft : ∀ tree target, passed (seekLeft tree target) =
    ((items tree).filter fun item => key item < target).reverse
  remaining_seekLeft : ∀ tree target, remaining (seekLeft tree target) =
    (items tree).filter fun item => target ≤ key item
  item_eq : ∀ cursor, item cursor = (remaining cursor).head?
  remaining_next : ∀ cursor, remaining (next cursor) = (remaining cursor).tail
  around_prev : ∀ {cursor before front}, passed cursor = before :: front →
    passed (prev cursor) = front ∧ remaining (prev cursor) = before :: remaining cursor
  around_prev_first : ∀ {cursor}, passed cursor = [] →
    passed (prev cursor) = [] ∧ remaining (prev cursor) = []

namespace OrderedSequence

/-! ## Sorted lists -/

section Lists

variable (key : Item → Key)

/-- The sorted list itself, cut in two at a cursor. -/
def ofLists : OrderedSequence key where
  Tree := { items : List Item // items.Pairwise fun before after => key before < key after }
  Cursor := List Item × List Item
  new := ⟨[], .nil⟩
  insertOrReplace added tree :=
    ⟨(tree.1.filter fun item => key item < key added) ++
      added :: tree.1.filter fun item => key added < key item, by
      rw [List.pairwise_append, List.pairwise_cons]
      refine ⟨tree.2.filter _, ⟨?_, tree.2.filter _⟩, ?_⟩
      · intro item member
        exact of_decide_eq_true (List.mem_filter.mp member).2
      · intro before below after member
        have less : key before < key added := of_decide_eq_true (List.mem_filter.mp below).2
        rcases List.mem_cons.mp member with rfl | above
        · exact less
        · exact less.trans (of_decide_eq_true (List.mem_filter.mp above).2)⟩
  first tree := tree.1.head?
  last tree := tree.1.getLast?
  seekLeft tree target :=
    ((tree.1.filter fun item => key item < target).reverse,
      tree.1.filter fun item => target ≤ key item)
  item cursor := cursor.2.head?
  next cursor :=
    match cursor with
    | (passed, item :: remaining) => (item :: passed, remaining)
    | (passed, []) => (passed, [])
  prev cursor :=
    match cursor with
    | (before :: passed, remaining) => (passed, before :: remaining)
    | ([], _) => ([], [])
  items tree := tree.1
  passed := Prod.fst
  remaining := Prod.snd
  sorted tree := tree.2
  items_new := rfl
  mem_insertOrReplace {added item tree} := by
    simp only [List.mem_append, List.mem_cons, List.mem_filter, decide_eq_true_eq]
    constructor
    · rintro (⟨member, below⟩ | rfl | ⟨member, above⟩)
      · exact Or.inr ⟨member, below.ne⟩
      · exact Or.inl rfl
      · exact Or.inr ⟨member, above.ne'⟩
    · rintro (rfl | ⟨member, differs⟩)
      · exact Or.inr (Or.inl rfl)
      · rcases lt_or_gt_of_ne differs with below | above
        · exact Or.inl ⟨member, below⟩
        · exact Or.inr (Or.inr ⟨member, above⟩)
  first_eq _ := rfl
  last_eq _ := rfl
  passed_seekLeft _ _ := rfl
  remaining_seekLeft _ _ := rfl
  item_eq _ := rfl
  remaining_next cursor := by
    rcases cursor with ⟨passed, _ | ⟨item, remaining⟩⟩ <;> rfl
  around_prev {cursor before front} passed := by
    rcases cursor with ⟨_, remaining⟩
    cases passed
    exact ⟨rfl, rfl⟩
  around_prev_first {cursor} passed := by
    rcases cursor with ⟨_, remaining⟩
    cases passed
    exact ⟨rfl, rfl⟩

end Lists

/-! ## Walking to an item -/

variable {key : Item → Key} (self : OrderedSequence key) (passes : Item → Bool)

theorem nodup_items (tree : self.Tree) : (self.items tree).Nodup :=
  (self.sorted tree).imp fun less => ne_of_apply_ne key less.ne

theorem length_remaining_next_lt {cursor : self.Cursor} {item : Item}
    (here : self.item cursor = some item) :
    (self.remaining (self.next cursor)).length < (self.remaining cursor).length := by
  rw [self.item_eq] at here
  rw [self.remaining_next, List.length_tail]
  have positive : (self.remaining cursor).length ≠ 0 := by
    intro empty
    rw [List.length_eq_zero_iff.mp empty] at here
    cases here
  exact Nat.sub_one_lt positive

/-- Move forward until an item passes. -/
def skipNext (cursor : self.Cursor) : self.Cursor :=
  match _here : self.item cursor with
  | some item => if passes item then cursor else skipNext (self.next cursor)
  | none => cursor
termination_by (self.remaining cursor).length
decreasing_by exact self.length_remaining_next_lt _here

theorem around_prev_lt {cursor : self.Cursor} {item : Item}
    (here : self.item cursor = some item) :
    (self.passed (self.prev cursor)).length + min 1 (self.remaining (self.prev cursor)).length <
      (self.passed cursor).length + min 1 (self.remaining cursor).length := by
  rw [self.item_eq] at here
  cases remaining : self.remaining cursor with
  | nil =>
      rw [remaining] at here
      cases here
  | cons _ after =>
      cases passed : self.passed cursor with
      | nil =>
          rcases self.around_prev_first passed with ⟨noPassed, noRemaining⟩
          simp [noPassed, noRemaining]
      | cons before front =>
          rcases self.around_prev passed with ⟨passed', remaining'⟩
          simp [passed', remaining']

/-- Move backward until an item passes. -/
def skipPrev (cursor : self.Cursor) : self.Cursor :=
  match _here : self.item cursor with
  | some item => if passes item then cursor else skipPrev (self.prev cursor)
  | none => cursor
termination_by (self.passed cursor).length + min 1 (self.remaining cursor).length
decreasing_by exact self.around_prev_lt _here

theorem item_skipNext (cursor : self.Cursor) :
    self.item (self.skipNext passes cursor) = (self.remaining cursor).find? passes := by
  induction remaining : self.remaining cursor generalizing cursor with
  | nil =>
      have ended : self.item cursor = none := by
        rw [self.item_eq, remaining]
        rfl
      rw [skipNext]
      split
      next here => cases ended.symm.trans here
      next => exact ended
  | cons item after ih =>
      have here : self.item cursor = some item := by
        rw [self.item_eq, remaining]
        rfl
      have moved : self.remaining (self.next cursor) = after := by
        rw [self.remaining_next, remaining]
        rfl
      rw [skipNext]
      split
      next found same =>
        rcases Option.some.inj (here.symm.trans same) with rfl
        cases passed : passes item with
        | true => rw [if_pos rfl, List.find?_cons_of_pos passed, here]
        | false =>
            rw [if_neg Bool.false_ne_true, List.find?_cons_of_neg (by simp [passed])]
            exact ih _ moved
      next same => cases here.symm.trans same

theorem item_skipPrev_prev (cursor : self.Cursor) :
    self.item (self.skipPrev passes (self.prev cursor)) = (self.passed cursor).find? passes := by
  induction passed : self.passed cursor generalizing cursor with
  | nil =>
      have ended : self.item (self.prev cursor) = none := by
        rw [self.item_eq, (self.around_prev_first passed).2]
        rfl
      rw [skipPrev]
      split
      next here => cases ended.symm.trans here
      next => exact ended
  | cons before front ih =>
      rcases self.around_prev passed with ⟨moved, remaining⟩
      have here : self.item (self.prev cursor) = some before := by
        rw [self.item_eq, remaining]
        rfl
      rw [skipPrev]
      split
      next found same =>
        rcases Option.some.inj (here.symm.trans same) with rfl
        cases passed' : passes before with
        | true => rw [if_pos rfl, List.find?_cons_of_pos passed', here]
        | false =>
            rw [if_neg Bool.false_ne_true, List.find?_cons_of_neg (by simp [passed'])]
            exact ih _ moved
      next same => cases here.symm.trans same

/-! ## The items around one of them -/

section Around

variable {tree : self.Tree} {front back : List Item} {item : Item}

theorem filter_around (items : self.items tree = front ++ item :: back) :
    ((self.items tree).filter fun other => key other < key item) = front ∧
      ((self.items tree).filter fun other => key item ≤ key other) = item :: back := by
  have sorted := self.sorted tree
  rw [items] at sorted ⊢
  rcases List.pairwise_append.mp sorted with ⟨_, later, across⟩
  have above := (List.pairwise_cons.mp later).1
  have belowItem : ∀ other ∈ front, key other < key item :=
    fun other member => across other member item List.mem_cons_self
  constructor
  · rw [List.filter_append, List.filter_eq_self.mpr, List.filter_eq_nil_iff.mpr, List.append_nil]
    · rintro other member
      rcases List.mem_cons.mp member with rfl | after
      · simp
      · simpa using (above other after).le
    · simpa using belowItem
  · rw [List.filter_append, List.filter_eq_nil_iff.mpr, List.filter_eq_self.mpr, List.nil_append]
    · rintro other member
      rcases List.mem_cons.mp member with rfl | after
      · simp
      · simpa using (above other after).le
    · simpa using belowItem

/-- The first item past a given one that passes. -/
theorem item_after (items : self.items tree = front ++ item :: back) :
    self.item (self.skipNext passes (self.next (self.seekLeft tree (key item)))) =
      back.find? passes := by
  rw [item_skipNext, self.remaining_next, self.remaining_seekLeft, (self.filter_around items).2]
  rfl

/-- The last item before a given one that passes. -/
theorem item_before (items : self.items tree = front ++ item :: back) :
    self.item (self.skipPrev passes (self.prev (self.seekLeft tree (key item)))) =
      front.reverse.find? passes := by
  rw [item_skipPrev_prev, self.passed_seekLeft, (self.filter_around items).1]

end Around

end OrderedSequence

end Gpui.Library
