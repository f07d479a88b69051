import Mathlib

/-!
# Keys of slot maps

A slot map hands out keys, each an index and a version of the slot there; at any time
at most one key of an index is in use.  `SecondaryMap` says what a map from such keys
provides when it is used with the keys in use.
-/

namespace Gpui.Library

structure SlotKey where
  index : Nat
  version : Nat
deriving DecidableEq, Repr

structure SecondaryMap (V : Type) where
  Map : Type
  new : Map
  get : Map → SlotKey → Option V
  insert : SlotKey → V → Map → Map
  remove : SlotKey → Map → Map
  get_new : ∀ key, get new key = none
  get_insert : ∀ {key value map}, (∀ other : SlotKey, other.index = key.index →
    get map other = none) → get (insert key value map) = Function.update (get map) key (some value)
  get_remove : ∀ {key map}, get (remove key map) = Function.update (get map) key none

namespace SecondaryMap

variable {V : Type}

/-- The value of a key, where a slot holds the version of the key. -/
def slotGet (slots : Nat → Option (Nat × V)) (key : SlotKey) : Option V :=
  (slots key.index).bind fun slot => if slot.1 = key.version then some slot.2 else none

theorem slotGet_update_self (slots : Nat → Option (Nat × V)) (key : SlotKey) (value : V) :
    slotGet (Function.update slots key.index (some (key.version, value))) key = some value := by
  simp [slotGet]

theorem slotGet_update_of_ne (slots : Nat → Option (Nat × V)) {index : Nat} {key : SlotKey}
    (differs : key.index ≠ index) (slot : Option (Nat × V)) :
    slotGet (Function.update slots index slot) key = slotGet slots key := by
  simp [slotGet, Function.update_of_ne differs]

/-- A map of slots, each with its latest version. -/
def ofSlots (V : Type) : SecondaryMap V where
  Map := Nat → Option (Nat × V)
  new _ := none
  get := slotGet
  insert key value slots :=
    match slots key.index with
    | some (version, _) =>
        if key.version < version then slots
        else Function.update slots key.index (some (key.version, value))
    | none => Function.update slots key.index (some (key.version, value))
  remove key slots :=
    if (slotGet slots key).isSome then Function.update slots key.index none else slots
  get_new _ := rfl
  get_insert {key value slots} vacant := by
    have empty : slots key.index = none := by
      by_contra full
      rcases Option.ne_none_iff_exists'.mp full with ⟨⟨version, value⟩, slot⟩
      have held := vacant ⟨key.index, version⟩ rfl
      simp [slotGet, slot] at held
    funext other
    rw [empty]
    by_cases same : other = key
    · rw [same, Function.update_self]
      exact slotGet_update_self slots key value
    · rw [Function.update_of_ne same]
      by_cases index : other.index = key.index
      · rw [vacant other index]
        have version : key.version ≠ other.version := by
          rintro version
          exact same (by cases other; cases key; simp_all)
        simp [slotGet, index, version]
      · exact slotGet_update_of_ne slots index _
  get_remove {key slots} := by
    funext other
    by_cases same : other = key
    · rw [same, Function.update_self]
      split
      · simp [slotGet]
      next empty => exact Option.not_isSome_iff_eq_none.mp empty
    · rw [Function.update_of_ne same]
      split
      next held =>
        by_cases index : other.index = key.index
        · have version : key.version ≠ other.version := by
            rintro version
            exact same (by cases other; cases key; simp_all)
          rcases Option.isSome_iff_exists.mp held with ⟨value, here⟩
          rcases Option.bind_eq_some_iff.mp here with ⟨slot, atSlot, found⟩
          have slotVersion : slot.1 = key.version := by
            by_contra differs
            simp [differs] at found
          simp [slotGet, index, atSlot, slotVersion, version]
        · exact slotGet_update_of_ne slots index _
      · rfl

end SecondaryMap

end Gpui.Library
