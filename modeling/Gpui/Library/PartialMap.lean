import Mathlib

/-!
# Partial maps that hand entries over

A partial map is a function to `Option`; the type of a value may depend on its key.
`promote` takes the entry of a key out of one map and puts it into another.
-/

namespace Gpui.Library

universe u v

/-- A partial map, whose keys give the types of their values. -/
abbrev PartialMap (κ : Type u) (α : κ → Type v) : Type (max u v) :=
  (key : κ) → Option (α key)

namespace PartialMap

variable {κ : Type u} [DecidableEq κ] {α : κ → Type v}

def empty : PartialMap κ α :=
  fun _ => none

def insert (map : PartialMap κ α) (key : κ) (value : α key) : PartialMap κ α :=
  Function.update map key (some value)

def remove (map : PartialMap κ α) (key : κ) : PartialMap κ α :=
  Function.update map key none

/-- Change the value of a key, if it has one. -/
def modify (map : PartialMap κ α) (key : κ) (change : α key → α key) : PartialMap κ α :=
  Function.update map key ((map key).map change)

omit [DecidableEq κ] in
@[simp]
theorem empty_apply (key : κ) : (empty : PartialMap κ α) key = none :=
  rfl

@[simp]
theorem insert_self (map : PartialMap κ α) (key : κ) (value : α key) :
    map.insert key value key = some value :=
  Function.update_self ..

@[simp]
theorem insert_of_ne (map : PartialMap κ α) {key other : κ} (value : α key)
    (differs : other ≠ key) : map.insert key value other = map other :=
  Function.update_of_ne differs ..

@[simp]
theorem remove_self (map : PartialMap κ α) (key : κ) : map.remove key key = none :=
  Function.update_self ..

@[simp]
theorem remove_of_ne (map : PartialMap κ α) {key other : κ} (differs : other ≠ key) :
    map.remove key other = map other :=
  Function.update_of_ne differs ..

@[simp]
theorem modify_self (map : PartialMap κ α) (key : κ) (change : α key → α key) :
    map.modify key change key = (map key).map change :=
  Function.update_self ..

@[simp]
theorem modify_of_ne (map : PartialMap κ α) {key other : κ} (change : α key → α key)
    (differs : other ≠ key) : map.modify key change other = map other :=
  Function.update_of_ne differs ..

theorem isSome_modify (map : PartialMap κ α) (key other : κ) (change : α key → α key) :
    (map.modify key change other).isSome = (map other).isSome := by
  by_cases same : other = key
  · subst same
    rw [modify_self, Option.isSome_map]
  · rw [modify_of_ne _ _ same]

theorem remove_eq_some_iff (map : PartialMap κ α) (key other : κ) (value : α other) :
    map.remove key other = some value ↔ other ≠ key ∧ map other = some value := by
  by_cases same : other = key
  · subst same
    simp
  · simp [same]

/-- What holds of the entries of a map and of one more holds when that is inserted. -/
theorem forall_insert {property : ∀ key, α key → Prop} {map : PartialMap κ α}
    (holds : ∀ key value, map key = some value → property key value) {key : κ} {value : α key}
    (new : property key value) :
    ∀ other found, map.insert key value other = some found → property other found := by
  intro other found present
  by_cases same : other = key
  · subst same
    rw [insert_self, Option.some.injEq] at present
    exact present ▸ new
  · rw [insert_of_ne map value same] at present
    exact holds other found present

theorem forall_remove {property : ∀ key, α key → Prop} {map : PartialMap κ α}
    (holds : ∀ key value, map key = some value → property key value) (key : κ) :
    ∀ other found, map.remove key other = some found → property other found := by
  intro other found present
  exact holds other found ((remove_eq_some_iff map key other found).mp present).2

/-- Insert one value under several keys. -/
theorem foldl_insert {β : Type v} (keys : List κ) (map : PartialMap κ fun _ => β) (value : β)
    (key : κ) :
    keys.foldl (fun map key => map.insert key value) map key =
      if key ∈ keys then some value else map key := by
  induction keys generalizing map with
  | nil => rfl
  | cons first keys ih =>
      rw [List.foldl_cons, ih]
      by_cases later : key ∈ keys
      · rw [if_pos later, if_pos (List.mem_cons_of_mem _ later)]
      · rw [if_neg later]
        by_cases same : key = first
        · rw [same, insert_self, if_pos List.mem_cons_self]
        · rw [insert_of_ne _ _ same, if_neg]
          exact List.not_mem_cons_of_ne_of_not_mem same later

/-- Remove several keys. -/
theorem foldl_remove_eq_some_iff (keys : List κ) (map : PartialMap κ α) (key : κ)
    (value : α key) :
    keys.foldl remove map key = some value ↔ key ∉ keys ∧ map key = some value := by
  induction keys generalizing map with
  | nil => simp
  | cons first keys ih =>
      rw [List.foldl_cons, ih, remove_eq_some_iff, List.mem_cons, not_or]
      exact and_left_comm.trans and_assoc.symm

/-! ## Handing over entries -/

/-- What the first map holds for a key is taken out of it and put into the second. -/
def promote (maps : PartialMap κ α × PartialMap κ α) (key : κ) :
    PartialMap κ α × PartialMap κ α :=
  match maps.1 key with
  | some value => (maps.1.remove key, maps.2.insert key value)
  | none => maps

theorem promote_fst (maps : PartialMap κ α × PartialMap κ α) (key : κ) :
    (promote maps key).1 = maps.1.remove key := by
  cases found : maps.1 key with
  | some value => simp only [promote, found]
  | none =>
      simp only [promote, found]
      exact (Function.update_eq_self_iff.mpr found.symm).symm

theorem promote_snd (maps : PartialMap κ α × PartialMap κ α) (key other : κ) :
    (promote maps key).2 other =
      if other = key then (maps.1 other).or (maps.2 other) else maps.2 other := by
  by_cases same : other = key
  · subst same
    cases found : maps.1 other with
    | some value => simp [promote, found]
    | none => simp [promote, found]
  · rw [if_neg same]
    cases found : maps.1 key with
    | some value => simp [promote, found, same]
    | none => simp [promote, found]

/-- Handing over the entries of some keys leaves the first map the others. -/
theorem foldl_promote_fst (keys : List κ) (maps : PartialMap κ α × PartialMap κ α)
    (key : κ) :
    (keys.foldl promote maps).1 key = if key ∈ keys then none else maps.1 key := by
  induction keys generalizing maps with
  | nil => simp
  | cons first keys ih =>
      rw [List.foldl_cons, ih, promote_fst]
      by_cases same : key = first
      · subst same
        simp
      · simp [same]

/-- The second map gets them, before its own. -/
theorem foldl_promote_snd (keys : List κ) (maps : PartialMap κ α × PartialMap κ α)
    (key : κ) :
    (keys.foldl promote maps).2 key =
      if key ∈ keys then (maps.1 key).or (maps.2 key) else maps.2 key := by
  induction keys generalizing maps with
  | nil => simp
  | cons first keys ih =>
      rw [List.foldl_cons, ih, promote_fst, promote_snd]
      by_cases same : key = first
      · subst same
        simp
      · simp [same]

/-- What holds of the entries of both maps holds of them afterwards. -/
theorem foldl_promote_forall {property : ∀ key, α key → Prop} (keys : List κ)
    {first second : PartialMap κ α}
    (ofFirst : ∀ key value, first key = some value → property key value)
    (ofSecond : ∀ key value, second key = some value → property key value) :
    (∀ key value, (keys.foldl promote (first, second)).1 key = some value →
        property key value) ∧
      ∀ key value, (keys.foldl promote (first, second)).2 key = some value →
        property key value := by
  constructor
  · intro key value found
    rw [foldl_promote_fst] at found
    split at found
    · cases found
    · exact ofFirst key value found
  · intro key value found
    rw [foldl_promote_snd] at found
    split at found
    · rcases Option.or_eq_some_iff.mp found with inFirst | ⟨-, inSecond⟩
      · exact ofFirst key value inFirst
      · exact ofSecond key value inSecond
    · exact ofSecond key value found

end PartialMap

end Gpui.Library
