import Mathlib

/-!
# Lists of slots

A list of slots gives away what is in a range of them, once.  Ranges that do not overlap
do not disturb each other.

A list of slots with a free list fills the empty slots again before it grows.
-/

namespace Gpui.Library

variable {α : Type*}

/-- Every slot of the range is there and holds something. -/
def Full (slots : List (Option α)) (start stop : Nat) : Prop :=
  stop ≤ slots.length ∧
    ∀ index, start ≤ index → index < stop → ∃ value, slots[index]? = some (some value)

/-- Take what is in a range of slots; the range must lie within the list. -/
def takeRange (slots : List (Option α)) (start stop : Nat) :
    Option (List (Option α) × List (Option α)) :=
  if start ≤ stop ∧ stop ≤ slots.length then
    some ((slots.take stop).drop start,
      slots.mapIdx fun index slot => if start ≤ index ∧ index < stop then none else slot)
  else none

theorem full_of_forall_isSome {slots : List (Option α)}
    (all : ∀ slot ∈ slots, slot.isSome = true) {stop : Nat} (bounded : stop ≤ slots.length)
    (start : Nat) : Full slots start stop := by
  refine ⟨bounded, ?_⟩
  intro index _ before
  have inside : index < slots.length := by omega
  have holds := all slots[index] (List.getElem_mem inside)
  rcases Option.isSome_iff_exists.mp holds with ⟨value, same⟩
  exact ⟨value, by rw [List.getElem?_eq_getElem inside, same]⟩

/-- A full range gives away something for each of its slots. -/
theorem takeRange_of_full {slots : List (Option α)} {start stop : Nat} (ordered : start ≤ stop)
    (full : Full slots start stop) :
    ∃ taken rest, takeRange slots start stop = some (taken, rest) ∧
      (∀ slot ∈ taken, slot.isSome = true) ∧
      ∀ otherStart otherStop, stop ≤ otherStart ∨ otherStop ≤ start →
        Full slots otherStart otherStop → Full rest otherStart otherStop := by
  rcases full with ⟨bounded, full⟩
  refine ⟨_, _, if_pos ⟨ordered, bounded⟩, ?_, ?_⟩
  · intro slot member
    rcases List.mem_iff_getElem?.mp member with ⟨offset, found⟩
    rw [List.getElem?_drop, List.getElem?_take] at found
    split at found
    next inside =>
      rcases full (start + offset) (by omega) inside with ⟨value, same⟩
      rw [same] at found
      rcases Option.some.inj found with rfl
      rfl
    next => cases found
  · intro otherStart otherStop apart otherFull
    refine ⟨by rw [List.length_mapIdx]; exact otherFull.1, ?_⟩
    intro index after before
    rcases otherFull.2 index after before with ⟨value, same⟩
    refine ⟨value, ?_⟩
    rw [List.getElem?_mapIdx, same, Option.map_some, if_neg (by omega)]

/-! ## Free lists -/

theorem getElem?_concat_of_ne {slots : List α} {last : α} {ix : Nat}
    (different : ix ≠ slots.length) : (slots ++ [last])[ix]? = slots[ix]? := by
  rcases lt_or_gt_of_ne different with before | beyond
  · exact List.getElem?_append_left before
  · rw [List.getElem?_eq_none beyond.le, List.getElem?_eq_none]
    rw [List.length_append, List.length_singleton]
    exact beyond

/-- What is in a slot fits it, and the free list has the empty slots. -/
structure Slotted (fits : Nat → α → Prop) (slots : List (Option α)) (free : List Nat) : Prop where
  fits : ∀ {ix : Nat} {value : α}, slots[ix]? = some (some value) → fits ix value
  nodup : free.Nodup
  free : ∀ ix, ix ∈ free ↔ slots[ix]? = some none

namespace Slotted

variable {fits : Nat → α → Prop} {slots : List (Option α)} {free : List Nat}

theorem empty (fits : Nat → α → Prop) : Slotted fits [] [] where
  fits found := by simp at found
  nodup := List.nodup_nil
  free ix := by simp

/-- A value is replaced. -/
theorem set (slotted : Slotted fits slots free) {ix : Nat} {value changed : α}
    (found : slots[ix]? = some (some value)) (fit : fits ix changed) :
    Slotted fits (slots.set ix (some changed)) free where
  fits {other item} foundItem := by
    rw [List.getElem?_set] at foundItem
    split at foundItem
    next here =>
      subst here
      split at foundItem
      next =>
        rcases Option.some.inj (Option.some.inj foundItem) with rfl
        exact fit
      next => cases foundItem
    next => exact slotted.fits foundItem
  nodup := slotted.nodup
  free other := by
    rw [slotted.free, List.getElem?_set]
    split
    next here =>
      subst here
      rw [found, if_pos (List.getElem?_eq_some_iff.mp found).1]
      simp
    next => rfl

/-- A slot is emptied. -/
theorem drop (slotted : Slotted fits slots free) {ix : Nat} {value : α}
    (found : slots[ix]? = some (some value)) :
    Slotted fits (slots.set ix none) (free ++ [ix]) where
  fits {other item} foundItem := by
    rw [List.getElem?_set] at foundItem
    split at foundItem
    next => split at foundItem <;> cases foundItem
    next => exact slotted.fits foundItem
  nodup := by
    rw [← List.concat_eq_append, List.nodup_concat]
    apply And.intro _ slotted.nodup
    intro member
    rw [slotted.free, found] at member
    cases member
  free other := by
    rw [List.mem_append, List.mem_singleton, List.getElem?_set]
    split
    next here =>
      subst here
      simp [(List.getElem?_eq_some_iff.mp found).1]
    next elsewhere =>
      rw [slotted.free]
      constructor
      · rintro (isFree | here)
        · exact isFree
        · exact absurd here.symm elsewhere
      · exact Or.inl

theorem vacant (slotted : Slotted fits slots free) {front : List Nat} {ix : Nat}
    (top : free = front ++ [ix]) : slots[ix]? = some none := by
  rw [← slotted.free, top]
  exact List.mem_append_right _ (List.mem_singleton_self _)

/-- The last slot of the free list is filled. -/
theorem fill (slotted : Slotted fits slots free) {front : List Nat} {ix : Nat}
    (top : free = front ++ [ix]) {value : α} (fit : fits ix value) :
    Slotted fits (slots.set ix (some value)) front := by
  have within : ix < slots.length := (List.getElem?_eq_some_iff.mp (slotted.vacant top)).1
  have nodup : (front ++ [ix]).Nodup := top ▸ slotted.nodup
  rw [← List.concat_eq_append, List.nodup_concat] at nodup
  constructor
  · intro other item found
    rw [List.getElem?_set] at found
    split at found
    next here =>
      subst here
      rcases Option.some.inj (Option.some.inj found) with rfl
      exact fit
    next => exact slotted.fits found
  · exact nodup.2
  · intro other
    rw [List.getElem?_set]
    split
    next here =>
      subst here
      simp [nodup.1]
    next elsewhere =>
      rw [← slotted.free, top, List.mem_append, List.mem_singleton]
      exact ⟨Or.inl, fun member => member.resolve_right (Ne.symm elsewhere)⟩

/-- Without an empty slot there is one more. -/
theorem grow (slotted : Slotted fits slots []) {value : α} (fit : fits slots.length value) :
    Slotted fits (slots ++ [some value]) [] := by
  constructor
  · intro other item found
    rw [List.getElem?_append] at found
    split at found
    next => exact slotted.fits found
    next outside =>
      rcases List.getElem?_eq_some_iff.mp found with ⟨inside, same⟩
      have last : other - slots.length = 0 := Nat.lt_one_iff.mp inside
      have here : other = slots.length :=
        Nat.le_antisymm (Nat.sub_eq_zero_iff_le.mp last) (Nat.le_of_not_lt outside)
      subst here
      simp only [Nat.sub_self, List.getElem_cons_zero, Option.some.injEq] at same
      rw [← same]
      exact fit
  · exact slotted.nodup
  · intro other
    rw [slotted.free, List.getElem?_append]
    split
    next => rfl
    next outside =>
      rw [List.getElem?_eq_none (Nat.le_of_not_lt outside)]
      cases other - slots.length <;> simp

end Slotted

end Gpui.Library
