import Mathlib

/-!
# Sequences with summaries

`SummedSequence` says what a sequence kept in a tree of summaries provides: it is built from
items and from other sequences, and cursors in it seek to a place given by the sum of the items
up to it, and then move item by item.  The items around a cursor describe what it does.
-/

namespace Gpui.Library

inductive Bias where
  | left
  | right
deriving DecidableEq, Repr

/-- A target is behind an item that ends before it, and for a bias to the right also behind one
that ends at it. -/
def Bias.passes : Bias → Ordering → Bool
  | _, .gt => true
  | .right, .eq => true
  | .left, .eq | _, .lt => false

section

variable {Item Summary : Type} [AddCommMonoid Summary]

/-- How many of the items a target is behind. -/
def passCount (summary : Item → Summary) (passes : Summary → Bool) : Summary → List Item → Nat
  | _, [] => 0
  | start, item :: items =>
      if passes (start + summary item) then
        passCount summary passes (start + summary item) items + 1
      else 0

/-- A target that is not behind an item is not behind a later one. -/
def Seekable (summary : Item → Summary) (passes : Summary → Bool) (start : Summary)
    (items : List Item) : Prop :=
  ∀ n m, 0 < n → n ≤ m → m ≤ items.length →
    passes (start + ((items.take m).map summary).sum) = true →
    passes (start + ((items.take n).map summary).sum) = true

structure SummedSequence (summary : Item → Summary) where
  Tree : Type
  Cursor : Type
  items : Tree → List Item
  /-- The items before a cursor, in order. -/
  passed : Cursor → List Item
  /-- The item of a cursor and those after it. -/
  remaining : Cursor → List Item
  fromIter : List Item → Tree
  append : Tree → Tree → Tree
  /-- A cursor at the first item. -/
  cursor : Tree → Cursor
  seekForward : (Summary → Ordering) → Bias → Cursor → Cursor
  item : Cursor → Option Item
  prev : Cursor → Cursor
  /-- The items that seeking forward passes. -/
  slice : (Summary → Ordering) → Bias → Cursor → Tree
  suffix : Cursor → Tree
  /-- The items that a filter of their summaries keeps, each with the sum of those before it. -/
  filter : (Summary → Bool) → Tree → List (Summary × Item)
  items_fromIter : ∀ list, items (fromIter list) = list
  items_append : ∀ front back, items (append front back) = items front ++ items back
  passed_cursor : ∀ tree, passed (cursor tree) = []
  remaining_cursor : ∀ tree, remaining (cursor tree) = items tree
  around_seekForward : ∀ {target bias cursor},
    Seekable summary (fun ends => bias.passes (target ends)) ((passed cursor).map summary).sum
      (remaining cursor) →
    let count := passCount summary (fun ends => bias.passes (target ends))
      ((passed cursor).map summary).sum (remaining cursor)
    passed (seekForward target bias cursor) = passed cursor ++ (remaining cursor).take count ∧
      remaining (seekForward target bias cursor) = (remaining cursor).drop count
  item_eq : ∀ cursor, item cursor = (remaining cursor).head?
  around_prev : ∀ {cursor front last}, passed cursor = front ++ [last] →
    passed (prev cursor) = front ∧ remaining (prev cursor) = last :: remaining cursor
  around_prev_first : ∀ {cursor}, passed cursor = [] →
    passed (prev cursor) = [] ∧ remaining (prev cursor) = []
  items_slice : ∀ {target bias cursor},
    Seekable summary (fun ends => bias.passes (target ends)) ((passed cursor).map summary).sum
      (remaining cursor) →
    items (slice target bias cursor) = (remaining cursor).take
      (passCount summary (fun ends => bias.passes (target ends))
        ((passed cursor).map summary).sum (remaining cursor))
  items_suffix : ∀ cursor, items (suffix cursor) = remaining cursor
  /-- For a filter that keeps a sum if it keeps one of the parts. -/
  filter_eq : ∀ {keeps : Summary → Bool} {tree}, keeps 0 = false →
    (∀ first second, keeps (first + second) = (keeps first || keeps second)) →
    filter keeps tree = ((items tree).mapIdx fun index item =>
      ((((items tree).take index).map summary).sum, item)).filter fun found =>
        keeps (summary found.2)

end

namespace SummedSequence

variable {Item Summary : Type} [AddCommMonoid Summary]

/-! ## Lists -/

section Lists

variable (summary : Item → Summary)

/-- The list itself, cut in two at a cursor. -/
def ofLists : SummedSequence summary where
  Tree := List Item
  Cursor := List Item × List Item
  items := id
  passed := Prod.fst
  remaining := Prod.snd
  fromIter := id
  append := List.append
  cursor tree := ([], tree)
  seekForward target bias cursor :=
    let count := passCount summary (fun ends => bias.passes (target ends))
      (cursor.1.map summary).sum cursor.2
    (cursor.1 ++ cursor.2.take count, cursor.2.drop count)
  item cursor := cursor.2[0]?
  prev cursor :=
    match cursor.1.getLast? with
    | some last => (cursor.1.dropLast, last :: cursor.2)
    | none => ([], [])
  slice target bias cursor :=
    cursor.2.take (passCount summary (fun ends => bias.passes (target ends))
      (cursor.1.map summary).sum cursor.2)
  suffix cursor := cursor.2
  filter keeps tree :=
    (tree.mapIdx fun index item => (((tree.take index).map summary).sum, item)).filter
      fun found => keeps (summary found.2)
  items_fromIter _ := rfl
  items_append _ _ := rfl
  passed_cursor _ := rfl
  remaining_cursor _ := rfl
  around_seekForward _ := ⟨rfl, rfl⟩
  item_eq _ := List.head?_eq_getElem?.symm
  around_prev {cursor front last} passed := by
    rw [passed, List.getLast?_concat, List.dropLast_concat]
    exact ⟨rfl, rfl⟩
  around_prev_first {cursor} passed := by
    rw [passed]
    exact ⟨rfl, rfl⟩
  items_slice _ := rfl
  items_suffix _ := rfl
  filter_eq _ _ := rfl

end Lists

variable {summary : Item → Summary} (self : SummedSequence summary)

/-- The sum of the items before a cursor. -/
def start (cursor : self.Cursor) : Summary :=
  ((self.passed cursor).map summary).sum

/-- The sum of all items. -/
def total (tree : self.Tree) : Summary :=
  ((self.items tree).map summary).sum

/-- A cursor at a target. -/
def seek (target : Summary → Ordering) (bias : Bias) (tree : self.Tree) : self.Cursor :=
  self.seekForward target bias (self.cursor tree)

/-- Seeking from the start cuts the items in two. -/
theorem around_seek {target : Summary → Ordering} {bias : Bias} {tree : self.Tree}
    (seekable : Seekable summary (fun ends => bias.passes (target ends)) 0 (self.items tree)) :
    let count := passCount summary (fun ends => bias.passes (target ends)) 0 (self.items tree)
    self.passed (self.seek target bias tree) = (self.items tree).take count ∧
      self.remaining (self.seek target bias tree) = (self.items tree).drop count := by
  have sum : ((self.passed (self.cursor tree)).map summary).sum = 0 := by
    rw [self.passed_cursor]
    rfl
  rw [← self.remaining_cursor, ← sum] at seekable
  have around := self.around_seekForward seekable
  rw [sum, self.remaining_cursor, self.passed_cursor] at around
  exact around

/-- A cursor behind an item goes back to it. -/
theorem prev_take {cursor : self.Cursor} {items : List Item} {n : Nat} (bound : n < items.length)
    (passed : self.passed cursor = items.take (n + 1)) :
    self.passed (self.prev cursor) = items.take n ∧
      self.item (self.prev cursor) = some (items[n]) := by
  rw [List.take_succ_eq_append_getElem bound] at passed
  have around := self.around_prev passed
  rw [around.1, self.item_eq, around.2]
  exact ⟨rfl, rfl⟩

/-- Before the first item there is none. -/
theorem prev_first {cursor : self.Cursor} (passed : self.passed cursor = []) :
    self.passed (self.prev cursor) = [] ∧ self.item (self.prev cursor) = none := by
  have around := self.around_prev_first passed
  rw [around.1, self.item_eq, around.2]
  exact ⟨rfl, rfl⟩

end SummedSequence

/-! ## Where a target is -/

section Pass

variable {Item Summary : Type} [AddCommMonoid Summary] {summary : Item → Summary}
  {passes : Summary → Bool} {start : Summary} {items : List Item}

theorem passCount_le : passCount summary passes start items ≤ items.length := by
  induction items generalizing start with
  | nil => exact le_rfl
  | cons item items ih =>
      rw [passCount]
      split_ifs
      · exact Nat.succ_le_succ ih
      · exact Nat.zero_le _

/-- The target is behind the items that are passed. -/
theorem passes_of_lt {n : Nat} (positive : 0 < n)
    (bound : n ≤ passCount summary passes start items) :
    passes (start + ((items.take n).map summary).sum) = true := by
  induction items generalizing start n with
  | nil =>
      rw [passCount] at bound
      omega
  | cons item items ih =>
      rw [passCount] at bound
      split_ifs at bound with behind
      · cases n with
        | zero => omega
        | succ n =>
            rw [List.take_succ_cons, List.map_cons, List.sum_cons, ← add_assoc]
            by_cases zero : n = 0
            · rw [zero, List.take_zero, List.map_nil, List.sum_nil, add_zero]
              exact behind
            · exact ih (Nat.pos_of_ne_zero zero) (Nat.le_of_succ_le_succ bound)
      · omega

/-- The target is not behind the next item. -/
theorem not_passes_succ (bound : passCount summary passes start items < items.length) :
    passes (start + ((items.take (passCount summary passes start items + 1)).map summary).sum) =
      false := by
  induction items generalizing start with
  | nil => exact absurd bound (Nat.not_lt_zero _)
  | cons item items ih =>
      by_cases behind : passes (start + summary item) = true
      · rw [passCount, if_pos behind] at bound ⊢
        rw [List.take_succ_cons, List.map_cons, List.sum_cons, ← add_assoc]
        exact ih (Nat.lt_of_succ_lt_succ bound)
      · rw [passCount, if_neg behind]
        rw [List.take_succ_cons, List.take_zero, List.map_singleton, List.sum_singleton]
        exact Bool.eq_false_iff.mpr behind

/-- The items that are passed are determined by what holds around the place. -/
theorem passCount_eq {n : Nat} (bound : n ≤ items.length)
    (behind : ∀ m, 0 < m → m ≤ n → passes (start + ((items.take m).map summary).sum) = true)
    (stops : n < items.length →
      passes (start + ((items.take (n + 1)).map summary).sum) = false) :
    passCount summary passes start items = n := by
  rcases lt_trichotomy (passCount summary passes start items) n with less | same | greater
  · have fails := not_passes_succ (less.trans_le bound)
    rw [behind _ (Nat.succ_pos _) less] at fails
    cases fails
  · exact same
  · have fails := stops (greater.trans_le passCount_le)
    rw [passes_of_lt (Nat.succ_pos _) greater] at fails
    cases fails

end Pass

end Gpui.Library
