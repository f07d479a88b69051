import Gpui.Library.PartialMap

/-!
# Finite maps

A partial map together with the set of its keys, so that what it holds can be counted and
summed.
-/

namespace Gpui.Library

universe u v w

/-- A partial map with finitely many keys. -/
structure FiniteMap (κ : Type u) (α : Type v) where
  get : PartialMap κ fun _ => α
  keys : Finset κ
  mem_keys : ∀ key, key ∈ keys ↔ (get key).isSome = true

namespace FiniteMap

variable {κ : Type u} {α : Type v} [DecidableEq κ]

omit [DecidableEq κ] in
theorem mem_keys_iff {map : FiniteMap κ α} {key : κ} :
    key ∈ map.keys ↔ ∃ value, map.get key = some value := by
  rw [map.mem_keys, Option.isSome_iff_exists]

omit [DecidableEq κ] in
theorem mem_keys_of_get {map : FiniteMap κ α} {key : κ} {value : α}
    (found : map.get key = some value) : key ∈ map.keys :=
  mem_keys_iff.2 ⟨value, found⟩

omit [DecidableEq κ] in
theorem not_mem_keys_iff {map : FiniteMap κ α} {key : κ} :
    key ∉ map.keys ↔ map.get key = none := by
  rw [map.mem_keys, Bool.not_eq_true, Option.isSome_eq_false_iff, Option.isNone_iff_eq_none]

def empty : FiniteMap κ α where
  get _ := none
  keys := ∅
  mem_keys key := by simp

def insert (map : FiniteMap κ α) (key : κ) (value : α) : FiniteMap κ α where
  get := map.get.insert key value
  keys := Insert.insert key map.keys
  mem_keys other := by
    rw [Finset.mem_insert]
    by_cases same : other = key
    · subst same
      simp
    · rw [PartialMap.insert_of_ne _ _ same, map.mem_keys]
      simp [same]

def erase (map : FiniteMap κ α) (key : κ) : FiniteMap κ α where
  get := map.get.remove key
  keys := map.keys.erase key
  mem_keys other := by
    rw [Finset.mem_erase]
    by_cases same : other = key
    · subst same
      simp
    · rw [PartialMap.remove_of_ne _ same, map.mem_keys]
      simp [same]

/-- Insert some entries, one after the other. -/
def insertAll (map : FiniteMap κ α) (entries : List (κ × α)) : FiniteMap κ α :=
  entries.foldl (fun map entry => map.insert entry.1 entry.2) map

def retain (map : FiniteMap κ α) (keep : κ → Bool) : FiniteMap κ α where
  get key := if keep key then map.get key else none
  keys := map.keys.filter fun key => keep key = true
  mem_keys key := by
    rw [Finset.mem_filter, map.mem_keys]
    by_cases kept : keep key = true
    · simp [kept]
    · simp [kept]

omit [DecidableEq κ] in
@[simp]
theorem get_empty (key : κ) : (empty : FiniteMap κ α).get key = none :=
  rfl

@[simp]
theorem get_insert_self (map : FiniteMap κ α) (key : κ) (value : α) :
    (map.insert key value).get key = some value :=
  PartialMap.insert_self ..

theorem get_insert_of_ne (map : FiniteMap κ α) {key other : κ} (value : α)
    (differs : other ≠ key) : (map.insert key value).get other = map.get other :=
  PartialMap.insert_of_ne _ _ differs

theorem get_insert (map : FiniteMap κ α) (key : κ) (value : α) (other : κ) :
    (map.insert key value).get other = if other = key then some value else map.get other := by
  split
  next same => rw [same, get_insert_self]
  next differs => exact map.get_insert_of_ne value differs

@[simp]
theorem get_erase_self (map : FiniteMap κ α) (key : κ) : (map.erase key).get key = none :=
  PartialMap.remove_self ..

theorem get_erase_of_ne (map : FiniteMap κ α) {key other : κ} (differs : other ≠ key) :
    (map.erase key).get other = map.get other :=
  PartialMap.remove_of_ne _ differs

theorem get_erase (map : FiniteMap κ α) (key other : κ) :
    (map.erase key).get other = if other = key then none else map.get other := by
  split
  next same => rw [same, get_erase_self]
  next differs => exact map.get_erase_of_ne differs

omit [DecidableEq κ] in
theorem get_retain (map : FiniteMap κ α) (keep : κ → Bool) (key : κ) :
    (map.retain keep).get key = if keep key then map.get key else none :=
  rfl

omit [DecidableEq κ] in
theorem get_retain_eq_some_iff {map : FiniteMap κ α} {keep : κ → Bool} {key : κ} {value : α} :
    (map.retain keep).get key = some value ↔ keep key = true ∧ map.get key = some value := by
  rw [get_retain, Option.ite_none_right_eq_some]

theorem get_insertAll_of_not_mem {entries : List (κ × α)} {map : FiniteMap κ α} {key : κ}
    (absent : key ∉ entries.map Prod.fst) : (map.insertAll entries).get key = map.get key := by
  induction entries generalizing map with
  | nil => rfl
  | cons entry entries ih =>
      rw [List.map_cons, List.mem_cons, not_or] at absent
      rw [insertAll, List.foldl_cons, ← insertAll, ih absent.2]
      exact map.get_insert_of_ne _ absent.1

theorem get_insertAll_of_mem {entries : List (κ × α)} (map : FiniteMap κ α) {key : κ}
    (member : key ∈ entries.map Prod.fst) :
    ∃ value, (key, value) ∈ entries ∧ (map.insertAll entries).get key = some value := by
  induction entries generalizing map with
  | nil => cases member
  | cons entry entries ih =>
      rw [insertAll, List.foldl_cons, ← insertAll]
      by_cases later : key ∈ entries.map Prod.fst
      · rcases ih (map.insert entry.1 entry.2) later with ⟨value, inRest, found⟩
        exact ⟨value, List.mem_cons_of_mem _ inRest, found⟩
      · rcases List.mem_cons.mp member with here | inRest
        · refine ⟨entry.2, ?_, ?_⟩
          · rw [here]
            exact List.mem_cons_self
          · rw [get_insertAll_of_not_mem later, here, get_insert_self]
        · exact absurd inRest later

/-! ## What is held under some of the keys -/

/-- The values of a function on what is held under some of the keys. -/
def image {β : Type w} [DecidableEq β] (map : FiniteMap κ α) (of : κ → Bool) (f : α → β) :
    Finset β :=
  (map.keys.filter fun key => of key = true).biUnion fun key =>
    ((map.get key).map f).toFinset

variable {β : Type w} [DecidableEq β] {map : FiniteMap κ α} {of : κ → Bool} {f : α → β}

omit [DecidableEq κ] in
theorem mem_image {result : β} :
    result ∈ map.image of f ↔
      ∃ key value, of key = true ∧ map.get key = some value ∧ f value = result := by
  rw [image, Finset.mem_biUnion]
  constructor
  · rintro ⟨key, member, inSet⟩
    rw [Option.mem_toFinset, Option.mem_def, Option.map_eq_some_iff] at inSet
    rcases inSet with ⟨value, found, same⟩
    exact ⟨key, value, (Finset.mem_filter.mp member).2, found, same⟩
  · rintro ⟨key, value, chosen, found, same⟩
    refine ⟨key, Finset.mem_filter.mpr ⟨mem_keys_of_get found, chosen⟩, ?_⟩
    rw [Option.mem_toFinset, found, Option.map_some, same]
    rfl

omit [DecidableEq κ] in
/-- The image depends on what is held under the keys alone. -/
theorem image_congr {map' : FiniteMap κ α} (f' : α → β)
    (same : ∀ key, of key = true → (map.get key).map f = (map'.get key).map f') :
    map.image of f = map'.image of f' := by
  apply Finset.ext
  intro result
  rw [mem_image, mem_image]
  constructor
  · rintro ⟨key, value, chosen, found, rfl⟩
    have there := same key chosen
    rw [found, Option.map_some] at there
    rcases Option.map_eq_some_iff.mp there.symm with ⟨value', found', same'⟩
    exact ⟨key, value', chosen, found', same'⟩
  · rintro ⟨key, value, chosen, found, rfl⟩
    have there := same key chosen
    rw [found, Option.map_some] at there
    rcases Option.map_eq_some_iff.mp there with ⟨value', found', same'⟩
    exact ⟨key, value', chosen, found', same'⟩

theorem image_erase_of_not {key : κ} (other : ¬ of key = true) :
    (map.erase key).image of f = map.image of f := by
  apply image_congr
  intro item chosen
  rw [get_erase_of_ne]
  rintro rfl
  exact other chosen

/-- What another key holds as well stays. -/
theorem image_erase_of_mem {key : κ} {value : α} (found : map.get key = some value)
    (again : f value ∈ (map.erase key).image of f) :
    (map.erase key).image of f = map.image of f := by
  apply Finset.ext
  intro result
  constructor
  · intro member
    rcases mem_image.1 member with ⟨item, held, chosen, there, rfl⟩
    rw [get_erase, Option.ite_none_left_eq_some] at there
    exact mem_image.2 ⟨item, held, chosen, there.2, rfl⟩
  · intro member
    rcases mem_image.1 member with ⟨item, held, chosen, there, rfl⟩
    by_cases same : item = key
    · rw [same, found] at there
      rcases Option.some.inj there with rfl
      exact again
    · exact mem_image.2 ⟨item, held, chosen, (map.get_erase_of_ne same).trans there, rfl⟩

theorem image_erase_of_not_mem {key : κ} {value : α} (found : map.get key = some value)
    (gone : f value ∉ (map.erase key).image of f) :
    (map.erase key).image of f = (map.image of f).erase (f value) := by
  apply Finset.ext
  intro result
  rw [Finset.mem_erase]
  constructor
  · intro member
    constructor
    · rintro rfl
      exact gone member
    · rcases mem_image.1 member with ⟨item, held, chosen, there, rfl⟩
      rw [get_erase, Option.ite_none_left_eq_some] at there
      exact mem_image.2 ⟨item, held, chosen, there.2, rfl⟩
  · rintro ⟨different, member⟩
    rcases mem_image.1 member with ⟨item, held, chosen, there, rfl⟩
    refine mem_image.2 ⟨item, held, chosen, ?_, rfl⟩
    rw [get_erase_of_ne]
    · exact there
    · rintro rfl
      rw [found] at there
      rcases Option.some.inj there with rfl
      exact different rfl

/-- Entries of one image are inserted under keys that hold nothing. -/
theorem image_insertAll {entries : List (κ × α)} (absent : ∀ entry ∈ entries,
    map.get entry.1 = none) (chosen : ∀ entry ∈ entries, of entry.1 = true)
    {result : β} (same : ∀ entry ∈ entries, f entry.2 = result) (some_ : entries ≠ []) :
    (map.insertAll entries).image of f = Insert.insert result (map.image of f) := by
  apply Finset.ext
  intro other
  rw [Finset.mem_insert]
  constructor
  · intro member
    rcases mem_image.1 member with ⟨key, value, isChosen, found, rfl⟩
    by_cases inserted : key ∈ entries.map Prod.fst
    · rcases get_insertAll_of_mem map inserted with ⟨value', inEntries, found'⟩
      rw [found'] at found
      rcases Option.some.inj found with rfl
      exact Or.inl (same _ inEntries)
    · rw [get_insertAll_of_not_mem inserted] at found
      exact Or.inr (mem_image.2 ⟨key, value, isChosen, found, rfl⟩)
  · rintro (rfl | member)
    · rcases List.exists_mem_of_ne_nil entries some_ with ⟨entry, inEntries⟩
      rcases get_insertAll_of_mem map (List.mem_map_of_mem (f := Prod.fst) inEntries) with
        ⟨value, valueInEntries, found⟩
      exact mem_image.2 ⟨entry.1, value, chosen _ inEntries, found, same _ valueInEntries⟩
    · rcases mem_image.1 member with ⟨key, value, isChosen, found, rfl⟩
      refine mem_image.2 ⟨key, value, isChosen, ?_, rfl⟩
      rw [get_insertAll_of_not_mem]
      · exact found
      · intro inserted
        rcases List.mem_map.mp inserted with ⟨entry, inEntries, rfl⟩
        cases (absent entry inEntries).symm.trans found

/-- How many of the keys are held. -/
def count (map : FiniteMap κ α) (of : κ → Bool) : Nat :=
  (map.keys.filter fun key => of key = true).card

theorem count_erase (of : κ → Bool) {key : κ} {value : α} (found : map.get key = some value)
    (chosen : of key = true) : (map.erase key).count of + 1 = map.count of := by
  rw [count, erase, Finset.filter_erase]
  exact Finset.card_erase_add_one (Finset.mem_filter.mpr ⟨mem_keys_of_get found, chosen⟩)

theorem count_erase_of_not {key : κ} (other : ¬ of key = true) :
    (map.erase key).count of = map.count of := by
  rw [count, erase, Finset.filter_erase, Finset.erase_eq_of_notMem, count]
  intro member
  exact other (Finset.mem_filter.mp member).2

theorem count_insert {key : κ} (value : α) (absent : map.get key = none)
    (chosen : of key = true) : (map.insert key value).count of = map.count of + 1 := by
  rw [count, insert, Finset.filter_insert, if_pos chosen, count]
  apply Finset.card_insert_of_notMem
  intro member
  exact not_mem_keys_iff.2 absent (Finset.mem_filter.mp member).1

theorem count_insert_of_not {key : κ} (value : α) (other : ¬ of key = true) :
    (map.insert key value).count of = map.count of := by
  rw [count, insert, Finset.filter_insert, if_neg other, count]

/-- Distinct keys that hold nothing are counted one by one. -/
theorem count_insertAll {entries : List (κ × α)} (absent : ∀ entry ∈ entries,
    map.get entry.1 = none) (chosen : ∀ entry ∈ entries, of entry.1 = true)
    (distinct : (entries.map Prod.fst).Nodup) :
    (map.insertAll entries).count of = map.count of + entries.length := by
  induction entries generalizing map with
  | nil => rfl
  | cons entry entries ih =>
      rw [List.map_cons, List.nodup_cons] at distinct
      rw [insertAll, List.foldl_cons, ← insertAll, ih _ _ distinct.2,
        count_insert _ (absent entry List.mem_cons_self) (chosen entry List.mem_cons_self),
        List.length_cons]
      · ring
      · intro other member
        rw [get_insert_of_ne]
        · exact absent other (List.mem_cons_of_mem _ member)
        · intro same
          apply distinct.1
          rw [← same]
          exact List.mem_map_of_mem member
      · exact fun other member => chosen other (List.mem_cons_of_mem _ member)

theorem count_insertAll_of_not {entries : List (κ × α)}
    (other : ∀ entry ∈ entries, ¬ of entry.1 = true) :
    (map.insertAll entries).count of = map.count of := by
  induction entries generalizing map with
  | nil => rfl
  | cons entry entries ih =>
      rw [insertAll, List.foldl_cons, ← insertAll,
        ih fun item member => other item (List.mem_cons_of_mem _ member)]
      exact count_insert_of_not _ (other entry List.mem_cons_self)

omit [DecidableEq κ] in
theorem count_congr {map' : FiniteMap κ α}
    (same : ∀ key, of key = true → ((map.get key).isSome ↔ (map'.get key).isSome)) :
    map.count of = map'.count of := by
  apply congrArg Finset.card
  apply Finset.ext
  intro key
  rw [Finset.mem_filter, Finset.mem_filter, map.mem_keys, map'.mem_keys]
  constructor
  · exact fun both => ⟨(same key both.2).mp both.1, both.2⟩
  · exact fun both => ⟨(same key both.2).mpr both.1, both.2⟩

end FiniteMap

end Gpui.Library
