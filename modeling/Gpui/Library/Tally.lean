import Mathlib

/-!
# Items that count what refers to them

Entries with distinct keys are put in places, and the item in a place counts its entries.
The count of one item changes together with the entries of its place.
-/

namespace Gpui.Library

variable {κ ν π ι : Type*} [DecidableEq π]

/-- The number of entries in a place. -/
def entriesIn (place : ν → π) (entries : List (κ × ν)) (here : π) : Nat :=
  entries.countP fun entry => place entry.2 = here

/-- The keys are distinct, every item counts its entries, and every entry has an item. -/
structure Tallied (items : π → Option ι) (tally : ι → Nat) (place : ν → π)
    (entries : List (κ × ν)) : Prop where
  unique : (entries.map Prod.fst).Nodup
  counts : ∀ {here item}, items here = some item → tally item = entriesIn place entries here
  placed : ∀ {entry}, entry ∈ entries → ∃ item, items (place entry.2) = some item

/-- The value of a key, as a map has it. -/
def valueOf [DecidableEq κ] (entries : List (κ × ν)) (key : κ) : Option ν :=
  (entries.find? fun entry => entry.1 = key).map Prod.snd

omit [DecidableEq π] in
theorem valueOf_eq_none_iff [DecidableEq κ] {entries : List (κ × ν)} {key : κ} :
    valueOf entries key = none ↔ ∀ entry ∈ entries, entry.1 ≠ key := by
  rw [valueOf, Option.map_eq_none_iff, List.find?_eq_none]
  simp

omit [DecidableEq π] in
theorem mem_of_valueOf [DecidableEq κ] {entries : List (κ × ν)} {key : κ} {value : ν}
    (mapped : valueOf entries key = some value) : (key, value) ∈ entries := by
  rcases Option.map_eq_some_iff.mp mapped with ⟨entry, found, rfl⟩
  have same : entry.1 = key := by
    simpa using List.find?_some found
  rw [← same]
  exact List.mem_of_find?_eq_some found

namespace Tallied

variable {items : π → Option ι} {tally : ι → Nat} {place : ν → π} {entries : List (κ × ν)}

theorem empty (tally : ι → Nat) (place : ν → π) :
    Tallied (fun _ => none) tally place ([] : List (κ × ν)) where
  unique := List.nodup_nil
  counts found := by cases found
  placed member := by cases member

/-- An item that is counted has an entry. -/
theorem tally_pos (tallied : Tallied items tally place entries) {entry : κ × ν} {item : ι}
    (member : entry ∈ entries) (found : items (place entry.2) = some item) : 0 < tally item := by
  rw [tallied.counts found]
  exact List.countP_pos_iff.mpr ⟨entry, member, decide_eq_true rfl⟩

/-- A new item has no entries. -/
theorem insertItem (tallied : Tallied items tally place entries) {here : π} {item : ι}
    (vacant : items here = none) (zero : tally item = 0) :
    Tallied (Function.update items here (some item)) tally place entries where
  unique := tallied.unique
  counts {other found} isFound := by
    by_cases same : other = here
    · rw [same, Function.update_self] at isFound
      rcases Option.some.inj isFound with rfl
      rw [zero, same, eq_comm, entriesIn, List.countP_eq_zero]
      intro entry member inPlace
      rcases tallied.placed member with ⟨owner, owns⟩
      rw [of_decide_eq_true inPlace, vacant] at owns
      cases owns
    · rw [Function.update_of_ne same] at isFound
      exact tallied.counts isFound
  placed {entry} member := by
    by_cases same : place entry.2 = here
    · rw [same, Function.update_self]
      exact ⟨item, rfl⟩
    · rw [Function.update_of_ne same]
      exact tallied.placed member

/-- An entry is added, and counted. -/
theorem insertEntry (tallied : Tallied items tally place entries) {key : κ} {value : ν}
    {item changed : ι} (absent : ∀ entry ∈ entries, entry.1 ≠ key)
    (found : items (place value) = some item) (counted : tally changed = tally item + 1) :
    Tallied (Function.update items (place value) (some changed)) tally place
      ((key, value) :: entries) where
  unique := by
    apply List.nodup_cons.mpr
    constructor
    · intro member
      rcases List.mem_map.mp member with ⟨entry, inEntries, same⟩
      exact absent entry inEntries same
    · exact tallied.unique
  counts {other item} isFound := by
    by_cases same : other = place value
    · rw [same, Function.update_self] at isFound
      rcases Option.some.inj isFound with rfl
      rw [counted, tallied.counts found, same, entriesIn, entriesIn, List.countP_cons_of_pos]
      exact decide_eq_true rfl
    · rw [Function.update_of_ne same] at isFound
      rw [tallied.counts isFound, entriesIn, entriesIn, List.countP_cons_of_neg]
      exact fun inPlace => same (of_decide_eq_true inPlace).symm
  placed {entry} member := by
    by_cases same : place entry.2 = place value
    · rw [same, Function.update_self]
      exact ⟨changed, rfl⟩
    · rw [Function.update_of_ne same]
      rcases List.mem_cons.mp member with rfl | old
      · exact absurd rfl same
      · exact tallied.placed old

variable [DecidableEq κ]

/-- A key is taken out once. -/
theorem perm_filter (tallied : Tallied items tally place entries) {key : κ} {value : ν}
    (member : (key, value) ∈ entries) :
    entries.Perm ((key, value) :: entries.filter fun entry => entry.1 ≠ key) := by
  classical
  have distinct : entries.Nodup := List.Nodup.of_map Prod.fst tallied.unique
  have filtered : entries.erase (key, value) = entries.filter fun entry => entry.1 ≠ key := by
    rw [distinct.erase_eq_filter]
    apply List.filter_congr
    intro entry inEntries
    rw [Bool.eq_iff_iff, bne_iff_ne, decide_eq_true_eq, not_iff_not]
    constructor
    · exact congrArg Prod.fst
    · exact List.inj_on_of_nodup_map tallied.unique inEntries member
  rw [← filtered]
  exact List.perm_cons_erase member

/-- Without a key its place has one entry less. -/
theorem entriesIn_filter (tallied : Tallied items tally place entries) {key : κ} {value : ν}
    (member : (key, value) ∈ entries) (here : π) :
    entriesIn place entries here =
      entriesIn place (entries.filter fun entry => entry.1 ≠ key) here +
        if place value = here then 1 else 0 := by
  rw [entriesIn, (tallied.perm_filter member).countP_eq, List.countP_cons, entriesIn]
  simp only [decide_eq_true_eq]

/-- A key is taken out, and the item of its place counts one less, or is dropped with its
last entry. -/
theorem removeEntry (tallied : Tallied items tally place entries) {key : κ} {value : ν}
    (member : (key, value) ∈ entries) {item : ι} (found : items (place value) = some item)
    {changed : Option ι} (counted : ∀ left ∈ changed, tally left + 1 = tally item)
    (last : changed = none → tally item = 1) :
    Tallied (Function.update items (place value) changed) tally place
      (entries.filter fun entry => entry.1 ≠ key) where
  unique := tallied.unique.sublist (List.filter_sublist.map Prod.fst)
  counts {other left} isFound := by
    have fewer := tallied.entriesIn_filter member other
    by_cases same : other = place value
    · rw [same, Function.update_self] at isFound
      rw [same, if_pos rfl, ← tallied.counts found, ← counted left isFound] at fewer
      rw [same]
      exact Nat.succ_injective fewer
    · rw [Function.update_of_ne same] at isFound
      rw [if_neg (Ne.symm same), Nat.add_zero] at fewer
      exact (tallied.counts isFound).trans fewer
  placed {entry} inFiltered := by
    have inEntries := List.mem_of_mem_filter inFiltered
    by_cases same : place entry.2 = place value
    · rw [same, Function.update_self]
      cases left : changed with
      | some rest => exact ⟨rest, rfl⟩
      | none =>
          have fewer := tallied.entriesIn_filter member (place value)
          rw [if_pos rfl, ← tallied.counts found, last left] at fewer
          have noEntries := List.countP_eq_zero.mp (Nat.succ_injective fewer).symm
          exact absurd (decide_eq_true same) (noEntries entry inFiltered)
    · rw [Function.update_of_ne same]
      exact tallied.placed inEntries

end Tallied

end Gpui.Library
