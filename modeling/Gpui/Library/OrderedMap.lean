import Mathlib

/-!
# Ordered maps

A finite map with its entries in the order of their keys, as a sorted
association list.  Every operation is described by what it does to lookups.
-/

namespace Gpui.Library

universe u v

/-- A finite map, listed by increasing keys. -/
structure OrderedMap (κ : Type u) (α : Type v) [LinearOrder κ] where
  entries : List (κ × α)
  sorted : entries.Pairwise fun first second => first.1 < second.1
deriving DecidableEq

namespace OrderedMap

variable {κ : Type u} {α : Type v} [LinearOrder κ]

def empty : OrderedMap κ α :=
  ⟨[], List.Pairwise.nil⟩

def get? (self : OrderedMap κ α) (key : κ) : Option α :=
  (self.entries.find? fun entry => entry.1 = key).map Prod.snd

def isEmpty (self : OrderedMap κ α) : Bool :=
  self.entries.isEmpty

/-- Insert into a sorted list, replacing the entry of an equal key. -/
def insertEntry (key : κ) (value : α) : List (κ × α) → List (κ × α)
  | [] => [(key, value)]
  | entry :: rest =>
      if key < entry.1 then (key, value) :: entry :: rest
      else if key = entry.1 then (key, value) :: rest
      else entry :: insertEntry key value rest

theorem mem_insertEntry {key : κ} {value : α} {entries : List (κ × α)} {entry : κ × α}
    (member : entry ∈ insertEntry key value entries) : entry = (key, value) ∨ entry ∈ entries := by
  induction entries with
  | nil => exact Or.inl (List.mem_singleton.mp member)
  | cons first rest ih =>
      simp only [insertEntry] at member
      split at member
      · exact List.mem_cons.mp member
      · split at member
        · exact (List.mem_cons.mp member).imp id (List.mem_cons_of_mem first)
        · rcases List.mem_cons.mp member with rfl | later
          · exact Or.inr List.mem_cons_self
          · exact (ih later).imp id (List.mem_cons_of_mem first)

theorem insertEntry_sorted {key : κ} {value : α} {entries : List (κ × α)}
    (sorted : entries.Pairwise fun first second => first.1 < second.1) :
    (insertEntry key value entries).Pairwise fun first second => first.1 < second.1 := by
  induction entries with
  | nil => exact List.pairwise_singleton _ _
  | cons first rest ih =>
      rcases List.pairwise_cons.mp sorted with ⟨below, restSorted⟩
      simp only [insertEntry]
      split
      · rename_i less
        refine List.pairwise_cons.mpr ⟨?_, sorted⟩
        rintro entry member
        rcases List.mem_cons.mp member with rfl | later
        · exact less
        · exact less.trans (below entry later)
      · split
        · rename_i same
          exact List.pairwise_cons.mpr ⟨fun entry later => same ▸ below entry later, restSorted⟩
        · rename_i notLess differ
          refine List.pairwise_cons.mpr ⟨?_, ih restSorted⟩
          rintro entry member
          rcases mem_insertEntry member with rfl | later
          · exact lt_of_le_of_ne (not_lt.mp notLess) (Ne.symm differ)
          · exact below entry later

def insert (self : OrderedMap κ α) (key : κ) (value : α) : OrderedMap κ α :=
  ⟨insertEntry key value self.entries, insertEntry_sorted self.sorted⟩

def erase (self : OrderedMap κ α) (key : κ) : OrderedMap κ α :=
  ⟨self.entries.filter fun entry => entry.1 ≠ key, self.sorted.filter _⟩

/-- Add all entries of `other`, replacing those of equal keys. -/
def extend (self other : OrderedMap κ α) : OrderedMap κ α :=
  other.entries.foldl (fun map entry => map.insert entry.1 entry.2) self

def eraseAll (self : OrderedMap κ α) (keys : List κ) : OrderedMap κ α :=
  keys.foldl erase self

/-! ## Lookups -/

@[simp]
theorem get?_empty (key : κ) : (empty : OrderedMap κ α).get? key = none :=
  rfl

private theorem find?_sorted_iff {entries : List (κ × α)}
    (sorted : entries.Pairwise fun first second => first.1 < second.1) {key : κ} {value : α} :
    (entries.find? fun entry => entry.1 = key).map Prod.snd = some value ↔
      (key, value) ∈ entries := by
  induction entries with
  | nil => simp
  | cons first rest ih =>
      rcases List.pairwise_cons.mp sorted with ⟨below, restSorted⟩
      by_cases here : first.1 = key
      · subst here
        rw [List.find?_cons_of_pos (by simp), Option.map_some, Option.some.injEq, List.mem_cons]
        constructor
        · rintro rfl
          exact Or.inl rfl
        · rintro (same | later)
          · exact congrArg Prod.snd same.symm
          · exact absurd (below _ later) (lt_irrefl _)
      · rw [List.find?_cons_of_neg (by simpa using here), ih restSorted, List.mem_cons]
        constructor
        · exact Or.inr
        · rintro (same | later)
          · exact absurd (congrArg Prod.fst same).symm here
          · exact later

theorem get?_eq_some_iff {self : OrderedMap κ α} {key : κ} {value : α} :
    self.get? key = some value ↔ (key, value) ∈ self.entries :=
  find?_sorted_iff self.sorted

theorem isEmpty_iff {self : OrderedMap κ α} :
    self.isEmpty = true ↔ ∀ key, self.get? key = none := by
  rw [isEmpty, List.isEmpty_iff]
  constructor
  · intro none key
    simp [get?, none]
  · intro none
    rw [List.eq_nil_iff_forall_not_mem]
    rintro ⟨key, value⟩ member
    have found := get?_eq_some_iff.mpr member
    rw [none key] at found
    simp at found

private theorem find?_insertEntry {key : κ} {value : α} {entries : List (κ × α)} (other : κ) :
    ((insertEntry key value entries).find? fun entry => entry.1 = other).map Prod.snd =
      if other = key then some value
      else (entries.find? fun entry => entry.1 = other).map Prod.snd := by
  induction entries with
  | nil => by_cases same : other = key <;> simp [insertEntry, same, eq_comm]
  | cons first rest ih =>
      simp only [insertEntry]
      split
      · by_cases same : other = key
        · simp [same]
        · simp [same, List.find?_cons, Ne.symm same]
      · split
        · rename_i replaced
          by_cases same : other = key
          · simp [same]
          · simp [same, Ne.symm same, ← replaced]
        · rename_i differ
          by_cases here : first.1 = other
          · have other_ne : other ≠ key := fun same => differ (same ▸ here.symm)
            simp [here, other_ne]
          · simp only [List.find?_cons, here, decide_false, ih]

@[simp]
theorem get?_insert (self : OrderedMap κ α) (key : κ) (value : α) (other : κ) :
    (self.insert key value).get? other = if other = key then some value else self.get? other :=
  find?_insertEntry other

@[simp]
theorem get?_erase (self : OrderedMap κ α) (key other : κ) :
    (self.erase key).get? other = if other = key then none else self.get? other := by
  rw [get?, erase, List.find?_filter]
  by_cases same : other = key
  · subst same
    have none : self.entries.find? (fun entry =>
        decide (entry.1 ≠ other) && decide (entry.1 = other)) = none := by
      simp
    simp
  · simp only [same, if_false, get?]
    congr 1
    refine List.find?_congr ?_
    intro entry _
    by_cases here : entry.1 = other <;> simp [here, same]

private theorem get?_foldl_insert (self : OrderedMap κ α) {entries : List (κ × α)}
    (sorted : entries.Pairwise fun first second => first.1 < second.1) (key : κ) :
    (entries.foldl (fun map entry => map.insert entry.1 entry.2) self).get? key =
      ((entries.find? fun entry => entry.1 = key).map Prod.snd).or (self.get? key) := by
  induction entries generalizing self with
  | nil => rfl
  | cons first rest ih =>
      rcases List.pairwise_cons.mp sorted with ⟨below, restSorted⟩
      rw [List.foldl_cons, ih _ restSorted, get?_insert]
      by_cases here : key = first.1
      · have later : rest.find? (fun entry => entry.1 = key) = none := by
          rw [List.find?_eq_none]
          intro entry member
          have less := below entry member
          simp [here, less.ne']
        rw [later, List.find?_cons_of_pos (by simp [here])]
        simp [here]
      · rw [List.find?_cons_of_neg (by simpa using Ne.symm here)]
        simp [here]

theorem get?_extend (self other : OrderedMap κ α) (key : κ) :
    (self.extend other).get? key = (other.get? key).or (self.get? key) :=
  get?_foldl_insert self other.sorted key

theorem get?_eraseAll (self : OrderedMap κ α) (keys : List κ) (key : κ) :
    (self.eraseAll keys).get? key = if key ∈ keys then none else self.get? key := by
  induction keys generalizing self with
  | nil => simp [eraseAll]
  | cons first rest ih =>
      rw [eraseAll, List.foldl_cons, ← eraseAll, ih, get?_erase]
      by_cases here : key = first <;> by_cases later : key ∈ rest <;> simp [here, later]

end OrderedMap

end Gpui.Library
