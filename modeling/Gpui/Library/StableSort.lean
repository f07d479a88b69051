import Mathlib

/-!
# Stable sorting by a key

`sortByKey` is the stable sort of a list by a key in a linear order.  It is an
insertion sort, so it evaluates structurally.
-/

namespace Gpui.Library

universe u v

variable {α : Type u} {κ : Type v} [LinearOrder κ]

/-- Sort by a key; elements with equal keys keep their order. -/
def sortByKey (key : α → κ) (items : List α) : List α :=
  items.insertionSort fun first second => key first ≤ key second

theorem sortByKey_perm (key : α → κ) (items : List α) : (sortByKey key items).Perm items :=
  List.perm_insertionSort _ items

@[simp]
theorem mem_sortByKey {key : α → κ} {items : List α} {item : α} :
    item ∈ sortByKey key items ↔ item ∈ items :=
  (sortByKey_perm key items).mem_iff

theorem sortByKey_pairwise (key : α → κ) (items : List α) :
    (sortByKey key items).Pairwise fun first second => key first ≤ key second := by
  have : Std.Total fun first second : α => key first ≤ key second :=
    ⟨fun first second => le_total (key first) (key second)⟩
  have : IsTrans α fun first second => key first ≤ key second :=
    ⟨fun _ _ _ => le_trans⟩
  exact List.pairwise_insertionSort _ items

/-- Elements with different keys are sorted strictly. -/
theorem sortByKey_pairwise_lt {key : α → κ} {items : List α}
    (distinct : items.Pairwise fun first second => key first ≠ key second) :
    (sortByKey key items).Pairwise fun first second => key first < key second := by
  have separate : (sortByKey key items).Pairwise fun first second => key first ≠ key second :=
    (sortByKey_perm key items).symm.pairwise distinct fun differ => Ne.symm differ
  exact (sortByKey_pairwise key items).imp₂ (fun _ _ => lt_of_le_of_ne) separate

/-! ## The front of a sorted list -/

/-- Scanning a sorted list until an element fails a test reaches the elements
below which none fails. -/
theorem mem_takeWhile_of_sorted {key : α → κ} {items : List α}
    (sorted : items.Pairwise fun first second => key first < key second) (passes : α → Bool)
    {item : α} :
    item ∈ items.takeWhile passes ↔
      item ∈ items ∧ passes item = true ∧
        ∀ other ∈ items, key other < key item → passes other = true := by
  induction items with
  | nil => simp
  | cons first items ih =>
      obtain ⟨below, rest⟩ := List.pairwise_cons.mp sorted
      cases passed : passes first with
      | false =>
          simp only [List.takeWhile_cons, passed, Bool.false_eq_true, if_false, List.not_mem_nil,
            false_iff]
          rintro ⟨member, passesItem, earlier⟩
          rcases List.mem_cons.mp member with rfl | later
          · exact Bool.false_ne_true (passed.symm.trans passesItem)
          · have failed := earlier first List.mem_cons_self (below item later)
            exact Bool.false_ne_true (passed.symm.trans failed)
      | true =>
          simp only [List.takeWhile_cons, passed, if_true, List.mem_cons]
          constructor
          · rintro (rfl | member)
            · refine ⟨Or.inl rfl, passed, ?_⟩
              rintro other (rfl | later) less
              · exact passed
              · exact absurd less (not_lt.mpr (le_of_lt (below other later)))
            · obtain ⟨later, passesItem, earlier⟩ := (ih rest).mp member
              refine ⟨Or.inr later, passesItem, ?_⟩
              rintro other (rfl | otherLater) less
              · exact passed
              · exact earlier other otherLater less
          · rintro ⟨rfl | later, passesItem, earlier⟩
            · exact Or.inl rfl
            · exact Or.inr ((ih rest).mpr
                ⟨later, passesItem, fun other otherLater => earlier other (Or.inr otherLater)⟩)

/-- The first element of a sorted list that passes a test is the least one that
does. -/
theorem head?_filter_of_sorted {key : α → κ} {items : List α}
    (sorted : items.Pairwise fun first second => key first < key second) (passes : α → Bool)
    {item : α} :
    (items.filter passes).head? = some item ↔
      item ∈ items ∧ passes item = true ∧
        ∀ other ∈ items, key other < key item → passes other = false := by
  induction items with
  | nil => simp
  | cons first items ih =>
      obtain ⟨below, rest⟩ := List.pairwise_cons.mp sorted
      cases passed : passes first with
      | true =>
          simp only [List.filter_cons, passed, if_true, List.head?_cons, Option.some.injEq,
            List.mem_cons]
          constructor
          · rintro rfl
            refine ⟨Or.inl rfl, passed, ?_⟩
            rintro other (rfl | later) less
            · exact absurd less (lt_irrefl _)
            · exact absurd less (not_lt.mpr (le_of_lt (below other later)))
          · rintro ⟨rfl | later, -, earlier⟩
            · rfl
            · have failed := earlier first (Or.inl rfl) (below item later)
              exact absurd (failed.symm.trans passed) Bool.false_ne_true
      | false =>
          simp only [List.filter_cons, passed, Bool.false_eq_true, if_false, List.mem_cons]
          rw [ih rest]
          constructor
          · rintro ⟨later, passesItem, earlier⟩
            refine ⟨Or.inr later, passesItem, ?_⟩
            rintro other (rfl | otherLater) less
            · exact passed
            · exact earlier other otherLater less
          · rintro ⟨rfl | later, passesItem, earlier⟩
            · exact absurd (passed.symm.trans passesItem) Bool.false_ne_true
            · exact ⟨later, passesItem,
                fun other otherLater => earlier other (Or.inr otherLater)⟩

end Gpui.Library
